import TemplateScopes.Proofs.Recency

/-!
# How full the cache gets

A new outline pushes out one old outline at most, and nothing else but a
request to drop all outlines makes the cache smaller.  So a reflector keeps
to its capacity until the capacity is lowered below the number of outlines
that it holds, and from then on it stays as full as it was.

There are two groups.

* Steps.  `Distinct` says that no key stands in the cache twice, and
  `Processed.length_eq` counts the outlines after one more template.
* Sessions.  `peak` is the largest capacity that was in force when a template
  was processed.  `session_keeps_to_peak` says what bounds the cache, and
  `session_overfull` that the capacity of the moment does not.
-/

namespace TemplateScopes.Reflector

/-! ## Steps -/

section Step

variable {r r' : Reflector} {t : Text} {answer : Answer} {entry : CacheEntry}
  {entries : List CacheEntry}

/-- Whether no two outlines in the cache have the same key. -/
def Distinct (r : Reflector) : Prop :=
  (r.entries.map CacheEntry.key).Nodup

theorem nodup_filter_concat {keys : List CacheKey} (h : keys.Nodup) (key : CacheKey) :
    (keys.filter (· ≠ key) ++ [key]).Nodup := by
  rw [List.nodup_append]
  refine ⟨h.sublist List.filter_sublist, List.nodup_singleton key, ?_⟩
  intro a ha b hb heq
  rw [List.mem_singleton.1 hb] at heq
  exact of_decide_eq_true (List.mem_filter.1 ha).2 heq

theorem length_touch (hd : (entries.map CacheEntry.key).Nodup) (hmem : entry ∈ entries) :
    (touch entry entries).length = entries.length := by
  have hcount := length_filter_ne hd entry.key
  rw [if_pos (List.mem_map_of_mem hmem)] at hcount
  rw [← List.length_map CacheEntry.key, map_key_touch, List.length_append, List.length_singleton,
    ← hcount, List.length_map]

theorem length_store (capacity : Int) (entry : CacheEntry) (entries : List CacheEntry) :
    (store capacity entry entries).length =
      entries.length + if capacity ≤ entries.length then 0 else 1 := by
  simp only [store, List.length_append, List.length_singleton]
  by_cases hfull : capacity ≤ (entries.length : Int)
  · rw [if_pos (by omega), if_pos hfull, List.length_drop, List.length_append,
      List.length_singleton]
    omega
  · rw [if_neg (by omega), if_neg hfull, List.length_append, List.length_singleton]

theorem Processed.distinct (h : Processed r t answer r') (hd : r.Distinct) : r'.Distinct := by
  cases h with
  | fault | unencodable | passed => exact hd
  | @kept entry _ _ _ _ _ =>
    show ((touch entry r.entries).map CacheEntry.key).Nodup
    rw [map_key_touch]
    exact nodup_filter_concat hd entry.key
  | @stored o _ _ hnew _ =>
    -- The new key is not there yet, and what is pushed out does no harm.
    have hall : (r.entries.map CacheEntry.key ++ [r.keyOf t]).Nodup := by
      have hconcat := nodup_filter_concat hd (r.keyOf t)
      have hsame : (r.entries.map CacheEntry.key).filter (· ≠ r.keyOf t) =
          r.entries.map CacheEntry.key :=
        List.filter_eq_self.2 fun key hkey => decide_eq_true fun heq : key = r.keyOf t =>
          not_mem_keys hnew (heq ▸ hkey)
      rwa [hsame] at hconcat
    have hsub : (store r.capacity ⟨r.keyOf t, r.made, o⟩ r.entries).Sublist
        (r.entries ++ [⟨r.keyOf t, r.made, o⟩]) := by
      simp only [store]
      split
      · exact List.drop_sublist ..
      · exact List.Sublist.refl _
    refine hall.sublist ?_
    have hkeys := hsub.map CacheEntry.key
    rwa [List.map_append] at hkeys

/-- A template whose outline is in the cache leaves the number of outlines as
it is, and so does any other template where the cache is full.  It does not
matter how much too full the cache is. -/
theorem Processed.length_eq {found : Nat × Outline} (h : Processed r t (.ok found) r')
    (hd : r.Distinct) (hroom : 0 < r.capacity) :
    r'.entries.length = r.entries.length +
      if r.keyOf t ∈ r.entries.map CacheEntry.key ∨ r.capacity ≤ r.entries.length then 0
      else 1 := by
  cases h with
  | @kept entry _ _ hmem hkey _ =>
    rw [if_pos (.inl (hkey ▸ List.mem_map_of_mem hmem))]
    exact length_touch hd hmem
  | stored _ _ hnew _ =>
    simp only [not_mem_keys hnew, false_or]
    exact length_store ..
  | passed hfull _ => omega

/-- A template that is new to a cache with some room gets in. -/
theorem handle_new {o : Outline} (hroom : 0 < r.capacity)
    (hbytes : Text.Utf8.fault? (normalize t) = none)
    (hnew : ∀ e ∈ r.entries, e.key ≠ r.keyOf t) (ho : Outline.ofText t r.context = .ok o) :
    r.handle (.process t) = (some (.ok (r.made, o)),
      { r with
        entries := store r.capacity ⟨r.keyOf t, r.made, o⟩ r.entries
        made := r.made + 1 }) := by
  have hnone : r.cached? (r.keyOf t) = none :=
    List.find?_eq_none.2 fun e he hkey => hnew e he (of_decide_eq_true hkey)
  rw [handle_process, process, if_neg (by omega), hbytes, hnone, ho]

end Step

/-! ## Sessions -/

/-- The capacity in force, and the largest one that was in force when a
template was processed since the outlines were dropped. -/
structure Gauge where
  capacity : Int
  peak : Int

/-- The gauge after one more request. -/
def Gauge.note (g : Gauge) : Request → Gauge
  | .process _ => { g with peak := max g.peak g.capacity }
  | .useContext _ => g
  | .resize capacity => { g with capacity }
  | .clear => { g with peak := 0 }

/-- The largest capacity that a template was processed with since the
outlines were last dropped, and 0 if there was no template. -/
def peak (r : Reflector) (requests : List Request) : Int :=
  (requests.foldl Gauge.note ⟨r.capacity, 0⟩).peak

/-- Whether a gauge goes with a reflector that has no more outlines than its
peak allows. -/
structure Gauged (g : Gauge) (r : Reflector) : Prop where
  sound : r.Sound
  distinct : r.Distinct
  capacity : r.capacity = g.capacity
  length_le : (r.entries.length : Int) ≤ g.peak

section Session

variable {r r' : Reflector} {g : Gauge} {t : Text} {answer : Answer}

theorem Gauged.processed (h : Gauged g r) (hstep : Processed r t answer r') :
    Gauged (g.note (.process t)) r' := by
  refine ⟨hstep.sound h.sound, hstep.distinct h.distinct,
    hstep.links_eq.2.2.trans h.capacity, ?_⟩
  have hcapacity := h.capacity
  have hle := h.length_le
  show (r'.entries.length : Int) ≤ max g.peak g.capacity
  cases hstep with
  | fault | unencodable => omega
  | passed => exact Int.le_trans hle (Int.le_max_left ..)
  | @kept entry hroom _ hmem hkey ho =>
    have hlength := length_touch h.distinct hmem
    show ((touch entry r.entries).length : Int) ≤ _
    omega
  | @stored o hroom _ hnew ho =>
    have hlength := length_store r.capacity ⟨r.keyOf t, r.made, o⟩ r.entries
    show ((store r.capacity ⟨r.keyOf t, r.made, o⟩ r.entries).length : Int) ≤ _
    split at hlength <;> omega

theorem Gauged.handle (h : Gauged g r) (q : Request) : Gauged (g.note q) (r.handle q).2 := by
  cases q with
  | process t => exact h.processed (processed_process h.sound t)
  | useContext number => exact ⟨h.sound.handle _, h.distinct, h.capacity, h.length_le⟩
  | resize capacity => exact ⟨h.sound.handle _, h.distinct, rfl, h.length_le⟩
  | clear => exact ⟨h.sound.handle .clear, List.nodup_nil, h.capacity, Int.le_refl _⟩

theorem gauged_after (hempty : r.entries = []) (requests : List Request) :
    Gauged (requests.foldl Gauge.note ⟨r.capacity, 0⟩) (r.after requests) := by
  induction requests using List.reverseRecOn with
  | nil =>
    show Gauged ⟨r.capacity, 0⟩ r
    refine ⟨sound_of_entries_eq_nil hempty, ?_, rfl, ?_⟩
    · rw [Distinct, hempty]
      exact List.nodup_nil
    · rw [hempty]
      exact Int.le_refl _
  | append_singleton requests q ih =>
    rw [after_concat, List.foldl_append]
    exact ih.handle q

end Session

/-- When a template was processed with a positive capacity, the cache has at
most one outline more than before, and none more if it was full or knew the
template.  So it keeps to the capacity if and only if it did so before.  In
every session it keeps to the largest capacity that a template was processed
with. -/
theorem session_keeps_to_peak {r : Reflector} {requests : List Request} (hempty : r.entries = [])
    {i : Nat} {t : Text} {found : Nat × Outline} {r' : Reflector}
    (hq : requests[i]? = some (.process t))
    (hstep : (r.session requests)[i]? = some (some (.ok found), r')) (hroom : 0 < r'.capacity) :
    r'.entries.length = (r.after (requests.take i)).entries.length +
      (if (r.after (requests.take i)).keyOf t ∈
          (r.after (requests.take i)).entries.map CacheEntry.key ∨
        r'.capacity ≤ (r.after (requests.take i)).entries.length then 0 else 1) ∧
    ((r'.entries.length : Int) ≤ r'.capacity ↔
      ((r.after (requests.take i)).entries.length : Int) ≤ r'.capacity) ∧
    (r'.entries.length : Int) ≤ r.peak (requests.take (i + 1)) := by
  have hbefore := gauged_after hempty (requests.take i)
  have hafter := gauged_after hempty (requests.take (i + 1))
  rw [getElem?_session, hq, Option.map_some, Option.some.injEq] at hstep
  rw [List.take_add_one, hq, Option.toList_some, after_concat, hstep] at hafter
  have hprocessed := processed_of_handle hbefore.sound hstep
  have hcapacity := hprocessed.links_eq.2.2
  rw [hcapacity] at hroom ⊢
  have hlength := hprocessed.length_eq hbefore.distinct hroom
  refine ⟨hlength, ?_, ?_⟩
  · split at hlength <;> omega
  · unfold peak
    rw [List.take_add_one, hq, Option.toList_some]
    exact hafter.length_le

/-- Two outlines are in the cache when the capacity goes down to one.  The
third template pushes out one of them and takes its place. -/
theorem session_lowered : ∃ o r',
    (session ⟨[], 0, 2, [], 0⟩ [.process "$A", .process "$B", .resize 1, .process "$C"])[3]? =
      some (some (.ok (2, o)), r') ∧ r'.capacity = 1 ∧ r'.entries.length = 2 := by
  have hplain : ∀ t : Text, Markup.tags (normalize t) = [] →
      ∃ o, Outline.ofText t Context.base = .ok o := fun t ht =>
    ⟨_, Outline.ofText_of_spansOf Context.base (Markup.spansOf_of_tags (n := .nil) ht.symm)
      (Forest.kept_iff.2 (by decide))⟩
  obtain ⟨a, ha⟩ := hplain "$A" (Markup.tags_eq_of_perm (by decide) (by decide))
  obtain ⟨b, hb⟩ := hplain "$B" (Markup.tags_eq_of_perm (by decide) (by decide))
  obtain ⟨c, hc⟩ := hplain "$C" (Markup.tags_eq_of_perm (by decide) (by decide))
  have hstepA := handle_new (r := ⟨[], 0, 2, [], 0⟩) (by simp) (by decide) (by simp) ha
  have hstepB := handle_new (r := ⟨[], 0, 2, [⟨⟨0, ("$A" : Text)⟩, 0, a⟩], 1⟩) (by simp)
    (by decide) (by simp [keyOf, normalize]) hb
  have hstepC := handle_new
    (r := ⟨[], 0, 1, [⟨⟨0, ("$A" : Text)⟩, 0, a⟩, ⟨⟨0, ("$B" : Text)⟩, 1, b⟩], 2⟩) (by simp)
    (by decide) (by simp [keyOf, normalize]) hc
  refine ⟨c, ⟨[], 0, 1, [⟨⟨0, ("$B" : Text)⟩, 1, b⟩, ⟨⟨0, ("$C" : Text)⟩, 2, c⟩], 3⟩, ?_, rfl, rfl⟩
  rw [getElem?_session]
  show some (handle ((((handle _ _).2.handle _).2.handle _).2) _) = _
  rw [hstepA]
  show some (handle ((handle (handle ⟨[], 0, 2, [⟨⟨0, ("$A" : Text)⟩, 0, a⟩], 1⟩ _).2 _).2) _) = _
  rw [hstepB]
  exact congrArg some hstepC

/-- The two outlines that are left are as many as the capacity was before. -/
theorem session_keeps_to_peak_lowered : ∃ o r',
    (session ⟨[], 0, 2, [], 0⟩ [.process "$A", .process "$B", .resize 1, .process "$C"])[3]? =
      some (some (.ok (2, o)), r') ∧
    0 < r'.capacity ∧ r'.entries.length = 2 ∧ (r'.entries.length : Int) ≤ 2 := by
  obtain ⟨o, r', hstep, hcapacity, hlength⟩ := session_lowered
  have hroom : 0 < r'.capacity := by omega
  obtain ⟨-, -, hle⟩ := session_keeps_to_peak rfl rfl hstep hroom
  exact ⟨o, r', hstep, hroom, hlength, hle⟩

/-- The capacity of the moment does not bound the cache. -/
theorem session_overfull : ∃ o r',
    (session ⟨[], 0, 2, [], 0⟩ [.process "$A", .process "$B", .resize 1, .process "$C"])[3]? =
      some (some (.ok (2, o)), r') ∧
    0 < r'.capacity ∧ ¬ (r'.entries.length : Int) ≤ r'.capacity := by
  obtain ⟨o, r', hstep, hcapacity, hlength⟩ := session_lowered
  exact ⟨o, r', hstep, by omega, by omega⟩

end TemplateScopes.Reflector
