import Mathlib.Data.List.Dedup
import Mathlib.Data.List.DropRight
import TemplateScopes.Proofs.Cache
import TemplateScopes.Proofs.Forest

/-!
# Recent use

A reflector with room for `n` outlines keeps the `n` that were used last.
The history of a session says which these are, and it does not look at the
cache: it only notes the keys of the templates that have an outline, and
bytes to make a key from.

There are three groups.

* Lists of keys.  `latest` lists the keys that were used last, and
  `latest_concat` says what one more use does.
* Steps.  `Tracks` ties a reflector to the history of its session, and
  `Tracks.handle` says that every request keeps the tie.
* Sessions.  `session_keeps_latest` is the main result.
-/

namespace TemplateScopes.Reflector

/-! ## Lists of keys -/

section Latest

variable {n : Nat} {key : CacheKey}

/-- The last `n` of the different keys that were used, each at its last use,
and the one used longest ago first. -/
def latest (n : Nat) (keys : List CacheKey) : List CacheKey :=
  keys.dedup.rtake n

theorem latest_nil (n : Nat) : latest n [] = [] :=
  List.drop_nil

theorem rtake_eq_self {α : Type} {l : List α} (h : l.length ≤ n) : l.rtake n = l := by
  unfold List.rtake
  rw [Nat.sub_eq_zero_of_le h, List.drop_zero]

theorem rtake_append_of_le_length {α : Type} {l l' : List α} (h : n ≤ l'.length) :
    (l ++ l').rtake n = l'.rtake n := by
  have hlength : l.length + l'.length - n = l.length + (l'.length - n) := by omega
  unfold List.rtake
  rw [List.length_append, hlength, List.drop_length_add_append]

theorem length_filter_ne {keys : List CacheKey} (h : keys.Nodup) (key : CacheKey) :
    keys.length = (keys.filter (· ≠ key)).length + if key ∈ keys then 1 else 0 := by
  have hcount : keys.countP (fun k => k = key) = if key ∈ keys then 1 else 0 := h.count
  rw [List.length_eq_countP_add_countP (fun k => k = key), hcount, Nat.add_comm,
    ← List.countP_eq_length_filter]
  simp only [decide_eq_true_eq, ne_eq]

theorem dedup_concat (keys : List CacheKey) (key : CacheKey) :
    (keys ++ [key]).dedup = keys.dedup.filter (· ≠ key) ++ [key] := by
  induction keys with
  | nil => rfl
  | cons first rest ih =>
    rw [List.cons_append]
    by_cases hrest : first ∈ rest
    · rw [List.dedup_cons_of_mem (List.mem_append_left _ hrest), List.dedup_cons_of_mem hrest, ih]
    · rw [List.dedup_cons_of_notMem hrest]
      by_cases hkey : first = key
      · subst hkey
        rw [List.dedup_cons_of_mem (List.mem_append_right _ (List.mem_singleton_self _)), ih,
          List.filter_cons_of_neg (by simp)]
      · rw [List.dedup_cons_of_notMem (by simp [hrest, hkey]), ih,
          List.filter_cons_of_pos (by simp [hkey]), List.cons_append]

/-- One more use puts a key last, and in front of it stand the keys that were
used last before. -/
theorem latest_concat (n : Nat) (keys : List CacheKey) (key : CacheKey) :
    latest n (keys ++ [key]) = ((latest n keys).filter (· ≠ key) ++ [key]).rtake n := by
  unfold latest
  rw [dedup_concat]
  rcases Nat.le_total keys.dedup.length n with hle | hle
  · rw [rtake_eq_self hle]
  · have hlength : (keys.dedup.rtake n).length = n := by
      unfold List.rtake
      rw [List.length_drop]
      omega
    have hnodup : (keys.dedup.rtake n).Nodup :=
      (List.nodup_dedup keys).sublist (List.drop_sublist _ _)
    have hcount := length_filter_ne hnodup key
    have hroom : n ≤ ((keys.dedup.rtake n).filter (· ≠ key) ++ [key]).length := by
      rw [List.length_append, List.length_singleton]
      split at hcount <;> omega
    have hsplit : keys.dedup.filter (· ≠ key) =
        (keys.dedup.take (keys.dedup.length - n)).filter (· ≠ key) ++
          (keys.dedup.rtake n).filter (· ≠ key) := by
      rw [← List.filter_append, List.rtake, List.take_append_drop]
    rw [hsplit, List.append_assoc, rtake_append_of_le_length hroom]

theorem length_latest_le (n : Nat) (keys : List CacheKey) : (latest n keys).length ≤ n := by
  unfold latest List.rtake
  rw [List.length_drop]
  omega

theorem nodup_latest (n : Nat) (keys : List CacheKey) : (latest n keys).Nodup :=
  (List.nodup_dedup keys).sublist (List.drop_sublist _ _)

/-- A key that was among the ones used last moves behind them. -/
theorem latest_concat_of_mem {keys : List CacheKey} (h : key ∈ latest n keys) :
    latest n (keys ++ [key]) = (latest n keys).filter (· ≠ key) ++ [key] := by
  have hcount := length_filter_ne (nodup_latest n keys) key
  rw [if_pos h] at hcount
  have hle := length_latest_le n keys
  rw [latest_concat, rtake_eq_self]
  rw [List.length_append, List.length_singleton]
  omega

/-- Any other key pushes out the one used longest ago if there are `n`. -/
theorem latest_concat_of_not_mem {keys : List CacheKey} (h : key ∉ latest n keys) :
    latest n (keys ++ [key]) = (latest n keys ++ [key]).rtake n := by
  have hall : (latest n keys).filter (· ≠ key) = latest n keys :=
    List.filter_eq_self.2 fun k hk => decide_eq_true fun heq => h (heq ▸ hk)
  rw [latest_concat, hall]

end Latest

/-! ## Steps -/

/-- What a session says about the use of keys: the number of the context in
use, and the keys that were used since the outlines were dropped. -/
structure History where
  current : Nat
  used : List CacheKey

/-- The history after one more request.  The key of a template counts as used
if the template has an outline. -/
def History.note (contexts : List Context) (h : History) : Request → History
  | .process t =>
    match keyedOutline t (contexts.getD h.current Context.base) with
    | .ok _ => { h with used := h.used ++ [⟨h.current, normalize t⟩] }
    | .error _ => h
  | .useContext number => { h with current := number }
  | .resize _ => h
  | .clear => { h with used := [] }

/-- The serial number of the outline in an answer. -/
def serial? : Answer → Option Nat
  | .ok (serial, _) => some serial
  | .error _ => none

/-- Whether a reflector has the cache that the history of its session asks
for, and all its outlines are among the ones that were returned. -/
structure Tracks (n : Nat) (h : History) (returned : List Nat) (r : Reflector) : Prop where
  sound : r.Sound
  capacity : r.capacity = n
  current : r.current = h.current
  keys : r.entries.map CacheEntry.key = latest n h.used
  known : ∀ e ∈ r.entries, e.serial ∈ returned
  given : ∀ serial ∈ returned, serial < r.made

theorem not_mem_keys {key : CacheKey} {entries : List CacheEntry}
    (h : ∀ e ∈ entries, e.key ≠ key) : key ∉ entries.map CacheEntry.key := by
  intro hmem
  obtain ⟨e, he, hkey⟩ := List.mem_map.1 hmem
  exact h e he hkey

theorem map_key_touch (entry : CacheEntry) (entries : List CacheEntry) :
    (touch entry entries).map CacheEntry.key =
      (entries.map CacheEntry.key).filter (· ≠ entry.key) ++ [entry.key] := by
  unfold touch
  rw [List.map_append, List.filter_map]
  rfl

theorem map_key_store {n : Nat} (entry : CacheEntry) {entries : List CacheEntry}
    (h : entries.length ≤ n) :
    (store n entry entries).map CacheEntry.key =
      (entries.map CacheEntry.key ++ [entry.key]).rtake n := by
  simp only [store, List.length_append, List.length_singleton, List.rtake, List.length_map]
  split
  · rw [List.map_drop, List.map_append, show entries.length + 1 - n = 1 by omega]
    rfl
  · rw [List.map_append, show entries.length + 1 - n = 0 by omega]
    rfl

section Step

variable {n : Nat} {h : History} {returned : List Nat} {r r' : Reflector} {t : Text}
  {answer : Answer}

theorem Tracks.length_le (ht : Tracks n h returned r) : r.entries.length ≤ n := by
  rw [← List.length_map CacheEntry.key, ht.keys]
  exact length_latest_le n h.used

/-- What the history notes when a template is processed. -/
theorem Tracks.note_process (ht : Tracks n h returned r) (t : Text) :
    h.note r.contexts (.process t) =
      match keyedOutline t r.context with
      | .ok _ => { h with used := h.used ++ [r.keyOf t] }
      | .error _ => h := by
  unfold Reflector.context keyOf
  rw [ht.current]
  rfl

/-- The request to process a template keeps the tie. -/
theorem Tracks.processed (ht : Tracks n h returned r) (hpos : 0 < n)
    (hstep : Processed r t answer r') :
    Tracks n (h.note r.contexts (.process t)) (returned ++ (serial? answer).toList) r' := by
  have hroom : 0 < r.capacity := by
    rw [ht.capacity]
    omega
  rw [ht.note_process, ← hstep.answer_eq hroom]
  have hsound := hstep.sound ht.sound
  have hbelow : ∀ serial ∈ returned, serial < r.made + 1 := fun serial hserial =>
    Nat.lt_succ_of_lt (ht.given serial hserial)
  cases hstep with
  | fault | unencodable => simpa [serial?, Except.map] using ht
  | @kept entry _ _ hmem hkey ho =>
    have hlatest : r.keyOf t ∈ latest n h.used := by
      rw [← ht.keys, ← hkey]
      exact List.mem_map_of_mem hmem
    refine ⟨hsound, ht.capacity, ht.current, ?_, ?_, ?_⟩
    · rw [map_key_touch, hkey, ht.keys]
      exact (latest_concat_of_mem hlatest).symm
    · intro e he
      exact List.mem_append_left _ (ht.known e (mem_touch hmem he))
    · intro serial hserial
      rcases List.mem_append.1 hserial with hserial | hserial
      · exact ht.given serial hserial
      · rw [List.mem_singleton.1 hserial]
        exact ht.sound.serials entry hmem
  | stored _ _ hnew ho =>
    have hlatest : r.keyOf t ∉ latest n h.used := by
      rw [← ht.keys]
      exact not_mem_keys hnew
    refine ⟨hsound, ht.capacity, ht.current, ?_, ?_, ?_⟩
    · rw [ht.capacity, map_key_store _ ht.length_le, ht.keys]
      exact (latest_concat_of_not_mem hlatest).symm
    · intro e he
      rcases mem_store he with he | rfl
      · exact List.mem_append_left _ (ht.known e he)
      · exact List.mem_append_right _ (List.mem_singleton_self _)
    · intro serial hserial
      rcases List.mem_append.1 hserial with hserial | hserial
      · exact hbelow serial hserial
      · rw [List.mem_singleton.1 hserial]
        exact Nat.lt_succ_self _
  | passed hfull _ => omega

/-- An outline was returned before if and only if the cache has its key. -/
theorem Tracks.mem_returned_iff (ht : Tracks n h returned r) (hpos : 0 < n) {serial : Nat}
    {o : Outline} (hstep : Processed r t (.ok (serial, o)) r') :
    serial ∈ returned ↔ r.keyOf t ∈ r.entries.map CacheEntry.key := by
  cases hstep with
  | @kept entry _ _ hmem hkey _ =>
    exact iff_of_true (ht.known entry hmem) (hkey ▸ List.mem_map_of_mem hmem)
  | stored _ _ hnew _ =>
    exact iff_of_false (fun hmem => Nat.lt_irrefl _ (ht.given _ hmem)) (not_mem_keys hnew)
  | passed hroom _ =>
    have hcapacity := ht.capacity
    omega

/-- Every request keeps the tie, if it does not change the capacity. -/
theorem Tracks.handle (ht : Tracks n h returned r) (hpos : 0 < n) {q : Request}
    (hfixed : ∀ m, q = .resize m → m = n) :
    Tracks n (h.note r.contexts q) (returned ++ ((r.handle q).1.bind serial?).toList)
      (r.handle q).2 := by
  cases q with
  | process t => exact ht.processed hpos (processed_process ht.sound t)
  | useContext number =>
    have hnext : Tracks n { h with current := number } returned { r with current := number } :=
      ⟨⟨ht.sound.outlines, ht.sound.serials⟩, ht.capacity, rfl, ht.keys, ht.known, ht.given⟩
    rwa [← List.append_nil returned] at hnext
  | resize m =>
    have hnext : Tracks n h returned { r with capacity := m } :=
      ⟨⟨ht.sound.outlines, ht.sound.serials⟩, hfixed m rfl, ht.current, ht.keys, ht.known,
        ht.given⟩
    rwa [← List.append_nil returned] at hnext
  | clear =>
    have hnext : Tracks n { h with used := [] } returned { r with entries := [] } :=
      ⟨sound_of_entries_eq_nil rfl, ht.capacity, ht.current, (latest_nil n).symm,
        fun e he => absurd he List.not_mem_nil, ht.given⟩
    rwa [← List.append_nil returned] at hnext

end Step

/-! ## Sessions -/

/-- The keys that the requests use after the outlines were last dropped. -/
def used (r : Reflector) (requests : List Request) : List CacheKey :=
  (requests.foldl (History.note r.contexts) ⟨r.current, []⟩).used

/-- The serial numbers of the outlines that the requests return. -/
def returned (r : Reflector) (requests : List Request) : List Nat :=
  (r.session requests).filterMap fun step => step.1.bind serial?

theorem returned_concat (r : Reflector) (requests : List Request) (q : Request) :
    r.returned (requests ++ [q]) =
      r.returned requests ++ (((r.after requests).handle q).1.bind serial?).toList := by
  unfold returned
  rw [session_concat, List.filterMap_append, List.filterMap_cons, List.filterMap_nil]
  cases ((r.after requests).handle q).1.bind serial? <;> rfl

theorem tracks_after {r : Reflector} {n : Nat} (hempty : r.entries = []) (hroom : r.capacity = n)
    (hpos : 0 < n) (requests : List Request)
    (hfixed : ∀ m, Request.resize m ∈ requests → m = n) :
    Tracks n (requests.foldl (History.note r.contexts) ⟨r.current, []⟩) (r.returned requests)
      (r.after requests) := by
  induction requests using List.reverseRecOn with
  | nil =>
    refine ⟨sound_of_entries_eq_nil hempty, hroom, rfl, ?_, ?_, ?_⟩
    · show r.entries.map CacheEntry.key = latest n []
      rw [hempty, latest_nil, List.map_nil]
    · intro e he
      rw [show (r.after []).entries = [] from hempty] at he
      exact absurd he List.not_mem_nil
    · intro serial hserial
      exact absurd hserial List.not_mem_nil
  | append_singleton requests q ih =>
    have htracks := ih fun m hm => hfixed m (List.mem_append_left _ hm)
    have hcontexts := ((sound_of_entries_eq_nil hempty).after requests).2
    have hnext := htracks.handle hpos (q := q) fun m hm =>
      hfixed m (List.mem_append_right _ (List.mem_singleton.2 hm.symm))
    rw [hcontexts] at hnext
    rw [after_concat, returned_concat, List.foldl_append]
    exact hnext

/-- A reflector that starts without outlines and always has room for `n` keeps
the `n` that were used last, in the order of their last uses.  What the
history counts as used is what succeeds.  A fault leaves the reflector as it
is, and an outline was returned before if and only if its key was among the
`n`. -/
theorem session_keeps_latest {r : Reflector} {n : Nat} {requests : List Request}
    (hempty : r.entries = []) (hroom : r.capacity = n) (hpos : 0 < n)
    (hfixed : ∀ m, Request.resize m ∈ requests → m = n) {i : Nat} {q : Request}
    {answer : Option Answer} {r' : Reflector} (hq : requests[i]? = some q)
    (hstep : (r.session requests)[i]? = some (answer, r')) :
    r'.entries.map CacheEntry.key = latest n (r.used (requests.take (i + 1))) ∧
    (∀ t, q = .process t → ∃ a, answer = some a ∧
      a.map Prod.snd = keyedOutline t (r.after (requests.take i)).context) ∧
    (∀ fault, answer = some (.error fault) → r' = r.after (requests.take i)) ∧
    ∀ t serial o, q = .process t → answer = some (.ok (serial, o)) →
      (serial ∈ r.returned (requests.take i) ↔
        (r.after (requests.take i)).keyOf t ∈ latest n (r.used (requests.take i))) := by
  have hfixed' : ∀ j m, Request.resize m ∈ requests.take j → m = n := fun j m hm =>
    hfixed m (List.mem_of_mem_take hm)
  have hbefore := tracks_after hempty hroom hpos (requests.take i) (hfixed' i)
  have hafter := tracks_after hempty hroom hpos (requests.take (i + 1)) (hfixed' (i + 1))
  rw [getElem?_session, hq, Option.map_some, Option.some.injEq] at hstep
  rw [List.take_add_one, hq, Option.toList_some, after_concat, hstep] at hafter
  refine ⟨?_, ?_, ?_, ?_⟩
  · rw [List.take_add_one, hq, Option.toList_some]
    exact hafter.keys
  · intro t hprocess
    subst hprocess
    have hanswer := congrArg Prod.fst hstep
    have hroom' : 0 < (r.after (requests.take i)).capacity := by
      rw [hbefore.capacity]
      omega
    exact ⟨_, hanswer.symm, (processed_process hbefore.sound t).answer_eq hroom'⟩
  · intro fault hfault
    subst hfault
    cases q with
    | process t => exact (processed_of_handle hbefore.sound hstep).eq_of_error
    | useContext | resize | clear => cases hstep
  · intro t serial o hprocess hanswer
    subst hprocess hanswer
    rw [used, ← hbefore.keys]
    exact hbefore.mem_returned_iff hpos (processed_of_handle hbefore.sound hstep)

/-- With room for one outline, a second template pushes out the first, until
that comes back. -/
theorem session_keeps_latest_pushed_out :
    ∃ answer r',
      (session ⟨[], 0, 1, [], 0⟩ [.process "$A", .process "$B", .process "$A"])[2]? =
        some (answer, r') ∧
      r'.entries.map CacheEntry.key = [⟨0, ("$A" : Text)⟩] := by
  have hplain : ∀ t : Text, Text.Utf8.fault? (normalize t) = none →
      Markup.tags (normalize t) = [] → ∃ o, keyedOutline t Context.base = .ok o := by
    intro t hbytes htags
    have ho := Outline.ofText_of_spansOf Context.base
      (Markup.spansOf_of_tags (n := .nil) htags.symm) (Forest.kept_iff.2 (by decide))
    unfold keyedOutline
    rw [hbytes, ho]
    exact ⟨_, rfl⟩
  obtain ⟨a, ha⟩ := hplain "$A" (by decide) (Markup.tags_eq_of_perm (by decide) (by decide))
  obtain ⟨b, hb⟩ := hplain "$B" (by decide) (Markup.tags_eq_of_perm (by decide) (by decide))
  have hused : used ⟨[], 0, 1, [], 0⟩ [.process "$A", .process "$B", .process "$A"] =
      [⟨0, ("$A" : Text)⟩, ⟨0, ("$B" : Text)⟩, ⟨0, ("$A" : Text)⟩] := by
    simp only [used, List.foldl_cons, List.foldl_nil, History.note, List.getD_nil, ha, hb]
    decide
  obtain ⟨answer, r', hstep⟩ : ∃ answer r', (session ⟨[], 0, 1, [], 0⟩
      [.process "$A", .process "$B", .process "$A"])[2]? = some (answer, r') :=
    ⟨_, _, getElem?_session _ _ 2⟩
  obtain ⟨hkeys, -⟩ := session_keeps_latest (n := 1) rfl rfl Nat.one_pos (by simp) rfl hstep
  exact ⟨answer, r', hstep, hkeys.trans ((congrArg (latest 1) hused).trans (by decide))⟩

end TemplateScopes.Reflector
