import TemplateScopes.Lookup.Config

/-!
# The schema of a configuration

A configuration is read from a JSON object key by key.  This module says
which objects hold a configuration, and which one, without the order in which
the keys are checked.

There are four groups.

* Presets.  `ofText?_eq_some_iff`: a preset is found by its name.
* The schema.  `Config.HeldBy` says what stands under each key.
* The readers.  Each of them reads exactly what would be written for what it
  gives.
* The whole.  `ofJson_eq_ok_iff`: a value is a configuration just if it is an
  object that holds one.
-/

namespace TemplateScopes

/-! ## Presets -/

theorem Preset.ofText?_toText (preset : Preset) : ofText? preset.toText = some preset := by
  cases preset <;> decide

theorem Preset.ofText?_eq_some_iff {name : Text} {preset : Preset} :
    ofText? name = some preset ↔ name = preset.toText := by
  constructor
  · intro h
    have hname := List.find?_some (p := fun preset : Preset => preset.toText = name) h
    exact (of_decide_eq_true hname).symm
  · rintro rfl
    exact preset.ofText?_toText

theorem Context.withPreset_toText (ctx : Context) (preset : Preset) :
    ctx.withPreset preset.toText = .ok (preset.on ctx) := by
  rw [withPreset, preset.ofText?_toText]

namespace Config

/-! ## The schema -/

/-- Rules as they are written, each as a pair of texts. -/
def ruleItems (rules : List (Text × Text)) : List Json :=
  rules.map fun rule => Json.texts [rule.1, rule.2]

/-- Whether an object holds a configuration.  A type that is not set and a
preset that is not named have no key.  A table without entries may have none
either.  Other keys do not matter, and nothing gives a name. -/
structure HeldBy (config : Config) (members : OrderedMap Json) : Prop where
  preset : members.get? "preset" = config.preset.map fun preset => .str preset.toText
  defaultType : members.get? "default_datatype" = config.layer.defaultType.map .str
  booleanType : members.get? "boolean_type" = config.layer.booleanType.map .str
  relationType : members.get? "relation_type" = config.layer.relationType.map .str
  globalAccessors : (members.get? "global_accessors").getD (.texts []) =
    .texts config.layer.globalAccessors
  collectionMethods : (members.get? "collection_methods").getD (.texts []) =
    .texts config.layer.collectionMethods
  knownTypes : (members.get? "known_types").getD (.texts []) = .texts config.layer.knownTypes
  fieldMethods : (members.get? "field_methods").getD (.textMap []) =
    .textMap config.layer.fieldMethods
  inferenceRules : (members.get? "infer_datatype").getD (.arr []) =
    .arr (ruleItems config.layer.inferenceRules)
  name : config.layer.name = none

/-! ## The readers -/

section Readers

variable {members : OrderedMap Json} {key : Text} {items : List Json}

theorem text?_eq_ok_iff {t : Option Text} :
    text? members key = .ok t ↔ members.get? key = t.map .str := by
  unfold text?
  split
  · rename_i hnone
    rw [hnone]
    cases t <;> simp
  · rename_i found hfound
    rw [hfound]
    cases t <;> simp
  · rename_i value hnot hvalue
    rw [hvalue]
    cases t with
    | none => simp
    | some t =>
      simp only [reduceCtorEq, Option.map_some, Option.some.injEq, false_iff]
      exact hnot t

theorem preset?_eq_ok_iff {name : Option Text} {preset : Option Preset} :
    preset? name = .ok preset ↔ name = preset.map Preset.toText := by
  unfold preset?
  split
  · cases preset <;> simp
  · rename_i name
    cases preset with
    | none => cases Preset.ofText? name <;> simp
    | some preset =>
      rw [Option.map_some, Option.some.injEq, ← Preset.ofText?_eq_some_iff]
      cases Preset.ofText? name <;> simp

theorem allTexts?_eq_some_iff {ts : List Text} :
    allTexts? items = some ts ↔ items = ts.map .str := by
  fun_induction allTexts? items generalizing ts with
  | case1 => cases ts <;> simp
  | case2 t rest ih =>
    cases ts with
    | nil => simp
    | cons u us => simp [ih, and_left_comm]
  | case3 item rest hnot =>
    cases ts with
    | nil => simp
    | cons u us => simpa using fun heq _ => hnot u heq

theorem texts_eq_ok_iff {ts : List Text} :
    texts members key = .ok ts ↔ (members.get? key).getD (.texts []) = .texts ts := by
  unfold texts Json.texts
  split
  · rename_i hnone
    rw [hnone]
    cases ts <;> simp
  · rename_i items hitems
    rw [hitems, Option.getD_some, Json.arr.injEq, ← allTexts?_eq_some_iff]
    cases allTexts? items <;> simp
  · rename_i value hnot hvalue
    rw [hvalue, Option.getD_some]
    simp only [reduceCtorEq, false_iff]
    exact hnot _

theorem allEntries?_eq_some_iff {entries : List (Text × Json)} {methods : List (Text × Text)} :
    allEntries? entries = some methods ↔
      entries = methods.map fun entry => (entry.1, .str entry.2) := by
  fun_induction allEntries? entries generalizing methods with
  | case1 => cases methods <;> simp
  | case2 key t rest ih =>
    cases methods with
    | nil => simp
    | cons entry methods => simp [ih, and_left_comm, and_assoc, Prod.ext_iff]
  | case3 item rest hnot =>
    cases methods with
    | nil => simp
    | cons entry methods => simpa using fun heq _ => hnot entry.1 entry.2 heq

theorem methods_eq_ok_iff {ms : List (Text × Text)} :
    methods members = .ok ms ↔ (members.get? "field_methods").getD (.textMap []) = .textMap ms := by
  unfold methods Json.textMap
  split
  · rename_i hnone
    rw [hnone]
    cases ms <;> simp
  · rename_i entries hentries
    rw [hentries, Option.getD_some, Json.obj.injEq, ← allEntries?_eq_some_iff]
    cases allEntries? entries <;> simp
  · rename_i value hnot hvalue
    rw [hvalue, Option.getD_some]
    simp only [reduceCtorEq, false_iff]
    exact hnot _

/-- A reader that goes on succeeds just if both parts do. -/
theorem bind_eq_ok_iff {ε α β : Type} {x : Except ε α} {f : α → Except ε β} {b : β} :
    x >>= f = .ok b ↔ ∃ a, x = .ok a ∧ f a = .ok b := by
  cases x with
  | error e =>
    constructor
    · intro h
      cases h
    · rintro ⟨a, h, -⟩
      cases h
  | ok a =>
    constructor
    · exact fun h => ⟨a, rfl, h⟩
    · rintro ⟨a', h, hf⟩
      obtain rfl := Except.ok.inj h
      exact hf

theorem rulesFrom_eq_ok_iff {index : Nat} {found : List (Text × Text)} :
    rulesFrom index items = .ok found ↔ items = ruleItems found := by
  fun_induction rulesFrom index items generalizing found with
  | case1 => cases found <;> simp [ruleItems]
  | case2 index pattern type rest ih =>
    rw [bind_eq_ok_iff]
    constructor
    · rintro ⟨rules, hrules, h⟩
      obtain rfl := Except.ok.inj h
      rw [ih.1 hrules]
      rfl
    · intro h
      cases found with
      | nil => cases h
      | cons rule found =>
        obtain ⟨hrule, hrest⟩ := List.cons.inj h
        obtain ⟨rfl, rfl⟩ : pattern = rule.1 ∧ type = rule.2 := by simpa [Json.texts] using hrule
        exact ⟨found, ih.2 hrest, rfl⟩
  | case3 index item rest hnot =>
    cases found with
    | nil => simp [ruleItems]
    | cons rule found =>
      simp only [reduceCtorEq, false_iff]
      intro h
      exact hnot rule.1 rule.2 (List.cons.inj h).1

theorem rules_eq_ok_iff {found : List (Text × Text)} : rules members = .ok found ↔
    (members.get? "infer_datatype").getD (.arr []) = .arr (ruleItems found) := by
  unfold rules
  split
  · rename_i hnone
    rw [hnone]
    cases found <;> simp [ruleItems]
  · rename_i items hitems
    rw [hitems, Option.getD_some, Json.arr.injEq, rulesFrom_eq_ok_iff]
  · rename_i value hnot hvalue
    rw [hvalue, Option.getD_some]
    simp only [reduceCtorEq, false_iff]
    exact hnot _

end Readers

/-! ## The whole -/

section Whole

variable {config : Config} {members : OrderedMap Json} {value : Json}

theorem ofJson_obj_eq_ok_iff : ofJson (.obj members) = .ok config ↔ config.HeldBy members := by
  simp only [ofJson, bind_eq_ok_iff, text?_eq_ok_iff, preset?_eq_ok_iff, texts_eq_ok_iff,
    methods_eq_ok_iff, rules_eq_ok_iff]
  constructor
  · rintro ⟨_, hname, _, hdefault, _, hboolean, _, hrelation, preset, rfl, _, haccessors, _,
      hcollection, _, hknown, _, hmethods, _, hrules, h⟩
    obtain rfl := Except.ok.inj h
    rw [Option.map_map] at hname
    exact ⟨hname, hdefault, hboolean, hrelation, haccessors, hcollection, hknown, hmethods, hrules,
      rfl⟩
  · intro h
    refine ⟨_, h.preset.trans (Option.map_map ..).symm, _, h.defaultType, _, h.booleanType, _,
      h.relationType, _, rfl, _, h.globalAccessors, _, h.collectionMethods, _, h.knownTypes, _,
      h.fieldMethods, _, h.inferenceRules, ?_⟩
    have hlayer : { config.layer with name := none } = config.layer := by rw [← h.name]
    exact congrArg (fun layer => Except.ok (Config.mk config.preset layer)) hlayer

/-- A JSON value is a configuration just if it is an object that holds one. -/
theorem ofJson_eq_ok_iff :
    ofJson value = .ok config ↔ ∃ members, value = .obj members ∧ config.HeldBy members := by
  cases value with
  | obj members => simp [ofJson_obj_eq_ok_iff]
  | null | bool | int | real | str | arr => simp [ofJson]

end Whole

end Config

end TemplateScopes
