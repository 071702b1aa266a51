import TemplateScopes.Scope.Cache

/-!
# The cache of a reflector

A reflector may give an outline that it made for an earlier request.  That
outline is the one of its key, and the key says all that an outline depends
on.  Only a text without bytes is treated differently while outlines are
kept: it has no key.

There are three groups.

* Keys.  `Reflector.outlineOf` is the outline that a key stands for, and
  `Reflector.keyedOutline` the one of a template that has to have a key.
* Steps.  `Reflector.Sound` says that all outlines in the cache are the ones
  of their keys, `Reflector.Processed` lists the ways in which the request
  to process a template can end, and `processed_process` says that there is
  no other.
* Sessions.  `Reflector.after` is the reflector after some requests, and
  `getElem?_session` finds it in a session.  A sound reflector stays sound
  (`Sound.after`).
-/

namespace TemplateScopes

namespace Outline

/-- A template has the outline of its normalised text. -/
theorem ofText_normalize (t : Text) (ctx : Context) : ofText (normalize t) ctx = ofText t ctx := by
  unfold ofText
  rw [normalize_normalize]

end Outline

namespace Reflector

/-! ## Keys -/

/-- The outline that a key stands for. -/
def outlineOf (contexts : List Context) (key : CacheKey) : Except AnalysisFault Outline :=
  Outline.ofText key.code (contexts.getD key.context Context.base)

theorem outlineOf_keyOf (r : Reflector) (t : Text) :
    outlineOf r.contexts (r.keyOf t) = Outline.ofText t r.context :=
  Outline.ofText_normalize t r.context

/-- The outline of a template from whose bytes a key is made. -/
def keyedOutline (t : Text) (ctx : Context) : Except ProcessFault Outline :=
  match Text.Utf8.fault? (normalize t) with
  | some fault => .error (.unencodable fault)
  | none => (Outline.ofText t ctx).mapError .analysis

/-! ## Steps -/

/-- Whether the outlines in the cache are those of their keys, under numbers
that were given out. -/
structure Sound (r : Reflector) : Prop where
  outlines : ∀ e ∈ r.entries, outlineOf r.contexts e.key = .ok e.outline
  serials : ∀ e ∈ r.entries, e.serial < r.made

theorem mem_touch {e entry : CacheEntry} {entries : List CacheEntry} (hentry : entry ∈ entries)
    (h : e ∈ touch entry entries) : e ∈ entries := by
  rcases List.mem_append.1 h with h | h
  · exact (List.mem_filter.1 h).1
  · rwa [List.mem_singleton.1 h]

theorem mem_store {capacity : Int} {e entry : CacheEntry} {entries : List CacheEntry}
    (h : e ∈ store capacity entry entries) : e ∈ entries ∨ e = entry := by
  have hboth : e ∈ entries ++ [entry] := by
    simp only [store] at h
    split at h
    · exact List.mem_of_mem_drop h
    · exact h
  exact (List.mem_append.1 hboth).imp_right List.mem_singleton.1

/-- How the request to process a template can end. -/
inductive Processed (r : Reflector) (t : Text) : Answer → Reflector → Prop where
  | fault {fault : AnalysisFault}
      (hbytes : 0 < r.capacity → Text.Utf8.fault? (normalize t) = none)
      (ho : Outline.ofText t r.context = .error fault) :
      Processed r t (.error (.analysis fault)) r
  /-- No key can be made from the text. -/
  | unencodable {fault : Text.Utf8.Fault} (hroom : 0 < r.capacity)
      (hfault : Text.Utf8.fault? (normalize t) = some fault) :
      Processed r t (.error (.unencodable fault)) r
  /-- The cache has the outline. -/
  | kept {entry : CacheEntry} (hroom : 0 < r.capacity)
      (hbytes : Text.Utf8.fault? (normalize t) = none) (hmem : entry ∈ r.entries)
      (hkey : entry.key = r.keyOf t) (ho : Outline.ofText t r.context = .ok entry.outline) :
      Processed r t (.ok (entry.serial, entry.outline))
        { r with entries := touch entry r.entries }
  /-- The cache takes a new outline in. -/
  | stored {o : Outline} (hroom : 0 < r.capacity)
      (hbytes : Text.Utf8.fault? (normalize t) = none)
      (hnew : ∀ e ∈ r.entries, e.key ≠ r.keyOf t) (ho : Outline.ofText t r.context = .ok o) :
      Processed r t (.ok (r.made, o))
        { r with
          entries := store r.capacity ⟨r.keyOf t, r.made, o⟩ r.entries
          made := r.made + 1 }
  /-- There is no room for a new outline. -/
  | passed {o : Outline} (hroom : r.capacity ≤ 0) (ho : Outline.ofText t r.context = .ok o) :
      Processed r t (.ok (r.made, o)) { r with made := r.made + 1 }

theorem processed_process {r : Reflector} (h : r.Sound) (t : Text) :
    Processed r t (r.process t).1 (r.process t).2 := by
  unfold process
  split
  · rename_i hroom
    cases ho : Outline.ofText t r.context with
    | error fault => exact .fault (fun hpos => by omega) ho
    | ok o => exact .passed hroom ho
  · rename_i hfull
    have hroom : 0 < r.capacity := by omega
    cases hbytes : Text.Utf8.fault? (normalize t) with
    | some fault => exact .unencodable hroom hbytes
    | none =>
      unfold cached?
      cases hfound : r.entries.find? (fun e => e.key = r.keyOf t) with
      | some entry =>
        have hmem := List.mem_of_find?_eq_some hfound
        have hkey := List.find?_some hfound
        rw [decide_eq_true_eq] at hkey
        have ho := h.outlines entry hmem
        rw [hkey, outlineOf_keyOf] at ho
        exact .kept hroom hbytes hmem hkey ho
      | none =>
        have hnew : ∀ e ∈ r.entries, e.key ≠ r.keyOf t := fun e he hkey =>
          List.find?_eq_none.1 hfound e he (decide_eq_true hkey)
        cases ho : Outline.ofText t r.context with
        | error fault => exact .fault (fun _ => hbytes) ho
        | ok o => exact .stored hroom hbytes hnew ho

theorem handle_process (r : Reflector) (t : Text) :
    r.handle (.process t) = (some (r.process t).1, (r.process t).2) :=
  rfl

section Processed

variable {r r' : Reflector} {t : Text} {answer : Answer}

theorem processed_of_handle (h : r.Sound)
    (hstep : r.handle (.process t) = (some answer, r')) : Processed r t answer r' := by
  rw [handle_process, Prod.mk.injEq, Option.some.injEq] at hstep
  obtain ⟨rfl, rfl⟩ := hstep
  exact processed_process h t

/-- While outlines are kept, the answer is the outline of a template with a
key, whatever the cache holds. -/
theorem Processed.answer_eq (h : Processed r t answer r') (hroom : 0 < r.capacity) :
    answer.map Prod.snd = keyedOutline t r.context := by
  unfold keyedOutline
  cases h with
  | fault hbytes ho =>
    rw [hbytes hroom, ho]
    rfl
  | unencodable _ hfault =>
    rw [hfault]
    rfl
  | kept _ hbytes _ _ ho | stored _ hbytes _ ho =>
    rw [hbytes, ho]
    rfl
  | passed hfull _ => omega

theorem Processed.eq_of_error {fault : ProcessFault} (h : Processed r t (.error fault) r') :
    r' = r := by
  cases h <;> rfl

theorem Processed.links_eq (h : Processed r t answer r') :
    r'.contexts = r.contexts ∧ r'.current = r.current ∧ r'.capacity = r.capacity := by
  cases h <;> exact ⟨rfl, rfl, rfl⟩

theorem Processed.sound (h : Processed r t answer r') (hr : r.Sound) : r'.Sound := by
  cases h with
  | fault | unencodable => exact hr
  | kept _ _ hmem _ _ =>
    exact ⟨fun e he => hr.outlines e (mem_touch hmem he),
      fun e he => hr.serials e (mem_touch hmem he)⟩
  | stored _ _ _ ho =>
    constructor
    · intro e he
      rcases mem_store he with he | rfl
      · exact hr.outlines e he
      · exact (outlineOf_keyOf r t).trans ho
    · intro e he
      rcases mem_store he with he | rfl
      · exact Nat.lt_succ_of_lt (hr.serials e he)
      · exact Nat.lt_succ_self _
  | passed => exact ⟨hr.outlines, fun e he => Nat.lt_succ_of_lt (hr.serials e he)⟩

end Processed

theorem sound_of_entries_eq_nil {r : Reflector} (h : r.entries = []) : r.Sound := by
  constructor <;> simp [h]

theorem Sound.handle {r : Reflector} (h : r.Sound) (q : Request) : (r.handle q).2.Sound := by
  cases q with
  | process t => exact (processed_process h t).sound h
  | useContext number => exact ⟨h.outlines, h.serials⟩
  | resize capacity => exact ⟨h.outlines, h.serials⟩
  | clear => exact sound_of_entries_eq_nil rfl

theorem contexts_handle {r : Reflector} (h : r.Sound) (q : Request) :
    (r.handle q).2.contexts = r.contexts := by
  cases q with
  | process t => exact (processed_process h t).links_eq.1
  | useContext | resize | clear => rfl

/-! ## Sessions -/

/-- The reflector after some requests. -/
def after (r : Reflector) (requests : List Request) : Reflector :=
  requests.foldl (fun r q => (r.handle q).2) r

theorem after_concat (r : Reflector) (requests : List Request) (q : Request) :
    r.after (requests ++ [q]) = ((r.after requests).handle q).2 :=
  List.foldl_append

theorem session_concat (r : Reflector) (requests : List Request) (q : Request) :
    r.session (requests ++ [q]) = r.session requests ++ [(r.after requests).handle q] := by
  induction requests generalizing r with
  | nil => rfl
  | cons first rest ih => exact congrArg ((r.handle first) :: ·) (ih (r.handle first).2)

/-- Every request of a session is handled by the reflector after the requests
in front of it. -/
theorem getElem?_session (r : Reflector) (requests : List Request) (i : Nat) :
    (r.session requests)[i]? = requests[i]?.map (r.after (requests.take i)).handle := by
  induction requests generalizing r i with
  | nil => rfl
  | cons first rest ih =>
    cases i with
    | zero => rfl
    | succ i => exact ih (r.handle first).2 i

theorem Sound.after {r : Reflector} (h : r.Sound) (requests : List Request) :
    (r.after requests).Sound ∧ (r.after requests).contexts = r.contexts := by
  induction requests generalizing r with
  | nil => exact ⟨h, rfl⟩
  | cons first rest ih =>
    obtain ⟨hsound, hcontexts⟩ := ih (h.handle first)
    exact ⟨hsound, hcontexts.trans (contexts_handle h first)⟩

end Reflector

end TemplateScopes
