import Mathlib.Data.List.Nodup
import TemplateScopes.Proofs.Layering
import TemplateScopes.Proofs.Schema

/-!
# Presets and configurations

The context of a configuration has the entries of the configuration on the
base tables, and a preset on top of both.  This module says that the preset
might as well be below the entries, and what it adds.

There are three groups.

* Listings.  The sorted list of some texts depends on nothing but which texts
  there are (`sortDistinct_congr`), so a listing does not show in which order
  names were added (`listing_congr`).
* Presets.  A preset adds accessors and a name, and nothing else
  (`Preset.on_eq`), so it changes places with a layer that has no name
  (`listing_on_extend`).
* Configurations.  `Config.Uses` says which preset counts.
  `Config.context_either_order` is the main result.
-/

namespace TemplateScopes

/-! ## Listings -/

namespace Text

variable {t : Text} {ts us : List Text}

theorem pairwise_insertDistinct (h : ts.Pairwise fun s u => s ≤ u ∧ s ≠ u) :
    (insertDistinct t ts).Pairwise fun s u => s ≤ u ∧ s ≠ u := by
  induction ts with
  | nil => exact List.pairwise_singleton ..
  | cons s ts ih =>
    obtain ⟨hfirst, hrest⟩ := List.pairwise_cons.1 h
    unfold insertDistinct
    split
    · exact h
    · rename_i hne
      split
      · rename_i hle
        refine List.pairwise_cons.2 ⟨?_, h⟩
        intro u hu
        rcases List.mem_cons.1 hu with rfl | hu
        · exact ⟨hle, hne⟩
        · obtain ⟨hsu, -⟩ := hfirst u hu
          refine ⟨List.le_trans hle hsu, ?_⟩
          rintro rfl
          exact hne (List.le_antisymm hle hsu)
      · rename_i hlater
        refine List.pairwise_cons.2 ⟨?_, ih hrest⟩
        intro u hu
        rcases mem_insertDistinct.1 hu with rfl | hu
        · exact ⟨(List.le_total s u).resolve_right hlater, Ne.symm hne⟩
        · exact hfirst u hu

theorem pairwise_sortDistinct (ts : List Text) :
    (sortDistinct ts).Pairwise fun s u => s ≤ u ∧ s ≠ u := by
  induction ts with
  | nil => exact .nil
  | cons t ts ih => exact pairwise_insertDistinct ih

/-- A sorted list is known by its members. -/
theorem sortDistinct_congr (h : ∀ t, t ∈ ts ↔ t ∈ us) : sortDistinct ts = sortDistinct us := by
  have hts := pairwise_sortDistinct ts
  have hus := pairwise_sortDistinct us
  have hperm : (sortDistinct ts).Perm (sortDistinct us) := by
    refine (List.perm_ext_iff_of_nodup (hts.imp And.right) (hus.imp And.right)).2 fun t => ?_
    rw [mem_sortDistinct, mem_sortDistinct, h]
  refine hperm.eq_of_pairwise ?_ (hts.imp And.left) (hus.imp And.left)
  exact fun s u _ _ hsu hus => List.le_antisymm hsu hus

end Text

/-- Contexts that differ in the order of their accessors only are listed
alike. -/
theorem Context.listing_congr {ctx other : Context}
    (h : ∀ name, name ∈ ctx.globalAccessors ↔ name ∈ other.globalAccessors)
    (hrest : { ctx with globalAccessors := other.globalAccessors } = other) :
    ctx.listing = other.listing := by
  rw [← hrest]
  unfold listing
  rw [Text.sortDistinct_congr h]

/-! ## Presets -/

section Presets

variable {preset : Preset} {ctx : Context} {layer : Layer}

/-- A preset adds accessors and a name. -/
theorem Preset.on_eq (preset : Preset) (ctx : Context) : preset.on ctx =
    { ctx with
      name := Context.layerName ctx.name preset.layer.name
      globalAccessors := ctx.globalAccessors ++ preset.layer.globalAccessors.map Text.lower } := by
  cases preset <;> simp [on, layer, Context.extend, Context.lowerKeys, OrderedMap.insertAll]

theorem Preset.name_on_base (hname : layer.name = none) :
    (preset.on (Context.base.extend layer)).name = preset.toText := by
  have hbase : (Context.base.extend layer).name = base.toText := by
    show Context.layerName base.toText layer.name = _
    rw [hname]
    rfl
  rw [Preset.on_eq]
  show Context.layerName (Context.base.extend layer).name _ = _
  rw [hbase]
  cases preset <;> rfl

/-- A preset and a layer without a name may change places. -/
theorem Preset.listing_on_extend (hname : layer.name = none) :
    (preset.on (ctx.extend layer)).listing = ((preset.on ctx).extend layer).listing := by
  rw [Preset.on_eq, Preset.on_eq]
  apply Context.listing_congr
  · intro name
    simp only [Context.extend, List.mem_append, or_assoc]
    rw [or_comm (b := name ∈ List.map Text.lower preset.layer.globalAccessors)]
  · simp only [Context.extend, hname, Context.layerName]

end Presets

/-! ## Configurations -/

namespace Config

section Configurations

variable {value : Json} {config : Config} {asked : Option Text} {preset : Preset}

/-- Whether a preset is the one to use: the one that is asked for, or else
that of the configuration, or else `base`. -/
def Uses (config : Config) (asked : Option Text) (preset : Preset) : Prop :=
  asked = some preset.toText ∨
    (asked = none ∨ asked = some []) ∧ preset = config.preset.getD .base

theorem exists_uses (config : Config)
    (h : asked = none ∨ asked = some [] ∨ ∃ preset : Preset, asked = some preset.toText) :
    ∃ preset, config.Uses asked preset := by
  rcases h with hnone | hempty | ⟨preset, hsome⟩
  · exact ⟨_, .inr ⟨.inl hnone, rfl⟩⟩
  · exact ⟨_, .inr ⟨.inr hempty, rfl⟩⟩
  · exact ⟨preset, .inl hsome⟩

theorem presetName_of_uses (h : config.Uses asked preset) :
    config.presetName asked = preset.toText := by
  rcases h with rfl | ⟨rfl | rfl, rfl⟩
  · cases preset <;> rfl
  · rfl
  · rfl

theorem context_of_uses (h : config.Uses asked preset) :
    config.context asked = .ok (preset.on (Context.base.extend config.layer)) := by
  rw [context, presetName_of_uses h, Context.withPreset_toText]
  rfl

/-- Every configuration has a context, with any preset that exists or none.
It is listed like the one with the entries of the configuration on top of the
preset.  It has the accessors of all three, and the name of the preset, and
all else it has from the entries and the base tables. -/
theorem context_either_order (h : ofJson value = .ok config)
    (hasked : asked = none ∨ asked = some [] ∨ ∃ preset : Preset, asked = some preset.toText) :
    ∃ (members : OrderedMap Json) (preset : Preset) (ctx below : Context),
      value = .obj members ∧ config.HeldBy members ∧ config.Uses asked preset ∧
      config.context asked = .ok ctx ∧
      (Context.base.extend config.layer).withPreset preset.toText = .ok ctx ∧
      Context.base.withPreset preset.toText = .ok below ∧
      ctx.listing = (below.extend config.layer).listing ∧
      (∀ name, ctx.isGlobalAccessor name = true ↔
        Context.base.isGlobalAccessor name = true ∨
          (∃ entry ∈ config.layer.globalAccessors, Text.lower entry = Text.lower name) ∨
          ∃ entry ∈ preset.layer.globalAccessors, Text.lower entry = Text.lower name) ∧
      ctx.name = preset.toText ∧
      ∀ name accessors, { ctx with name := name, globalAccessors := accessors } =
        { Context.base.extend config.layer with name := name, globalAccessors := accessors } := by
  obtain ⟨members, rfl, hheld⟩ := ofJson_eq_ok_iff.1 h
  obtain ⟨preset, huses⟩ := exists_uses config hasked
  refine ⟨members, preset, _, preset.on Context.base, rfl, hheld, huses, context_of_uses huses,
    Context.withPreset_toText .., Context.withPreset_toText .., Preset.listing_on_extend hheld.name,
    ?_, Preset.name_on_base hheld.name, ?_⟩
  · intro name
    rw [Preset.on, Context.isGlobalAccessor_extend, Context.isGlobalAccessor_extend, or_assoc]
  · intro name accessors
    rw [Preset.on_eq]

/-- A preset that is asked for takes the place of the one that the
configuration names, while the entries of the configuration stay. -/
theorem context_either_order_replaced :
    ofJson (.obj [("preset", .str "email"), ("global_accessors", .arr [.str "Banner"])]) =
        .ok ⟨some .email, { globalAccessors := ["Banner"] }⟩ ∧
      ∃ ctx, context ⟨some .email, { globalAccessors := ["Banner"] }⟩ (some "site-tree") = .ok ctx ∧
        ctx.isGlobalAccessor "Menu" = true ∧ ctx.isGlobalAccessor "BANNER" = true ∧
        ctx.isGlobalAccessor "Subject" = false ∧ ctx.name = ("site-tree" : Text) := by
  have h : ofJson (.obj [("preset", .str "email"), ("global_accessors", .arr [.str "Banner"])]) =
      .ok ⟨some .email, { globalAccessors := ["Banner"] }⟩ := rfl
  have hasked : some ("site-tree" : Text) = none ∨ some ("site-tree" : Text) = some [] ∨
      ∃ preset : Preset, some ("site-tree" : Text) = some preset.toText :=
    .inr (.inr ⟨.siteTree, rfl⟩)
  refine ⟨h, ?_⟩
  obtain ⟨members, preset, ctx, below, -, -, huses, hctx, -, -, -, haccessor, hname, -⟩ :=
    context_either_order h hasked
  obtain rfl : preset = .siteTree := by
    rcases huses with hsome | ⟨hnone | hempty, -⟩
    · have hfound := Preset.ofText?_eq_some_iff.2 (Option.some.inj hsome)
      exact Option.some.inj (hfound.symm.trans (Preset.ofText?_toText .siteTree))
    · cases hnone
    · exact absurd hempty (by decide)
  refine ⟨ctx, hctx, ?_, ?_, ?_, hname⟩
  · exact (haccessor _).2 (.inr (.inr ⟨("Menu" : Text), by decide, rfl⟩))
  · exact (haccessor _).2 (.inr (.inl ⟨("Banner" : Text), by decide, by decide +kernel⟩))
  · rw [Bool.eq_false_iff, Ne, haccessor]
    decide +kernel

end Configurations

end Config

end TemplateScopes
