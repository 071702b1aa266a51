import TemplateScopes.Text.Basic

/-!
# Maps in insertion order

A map from texts is the list of its entries.  A new key goes to the end,
and a key that is there already keeps its place when its value changes.
These two facts are `keys_insert`, and `get?_insert` says what the values
are.
-/

namespace TemplateScopes

/-- Entries with distinct keys, in the order in which the keys came. -/
abbrev OrderedMap (α : Type) := List (Text × α)

namespace OrderedMap

variable {α : Type}

/-- The keys in their order. -/
def keys (m : OrderedMap α) : List Text :=
  m.map Prod.fst

/-- The value of a key. -/
def get? (m : OrderedMap α) (key : Text) : Option α :=
  List.lookup key m

/-- Whether a key has a value. -/
def has (m : OrderedMap α) (key : Text) : Bool :=
  m.any fun entry => entry.1 = key

theorem has_iff {m : OrderedMap α} {key : Text} : m.has key = true ↔ key ∈ keys m := by
  simp [has, keys, List.any_eq_true]

/-- A key without a value is not there. -/
theorem get?_eq_none_iff {m : OrderedMap α} {key : Text} : m.get? key = none ↔ key ∉ keys m := by
  simp only [get?, List.lookup_eq_none_iff, keys, List.mem_map, not_exists, not_and, bne_iff_ne]
  exact ⟨fun h entry hentry heq => h entry hentry heq.symm,
    fun h entry hentry heq => h entry hentry heq.symm⟩

/-- Gives a key a value. -/
def insert (m : OrderedMap α) (key : Text) (value : α) : OrderedMap α :=
  match m with
  | [] => [(key, value)]
  | entry :: rest =>
    if entry.1 = key then (key, value) :: rest else entry :: insert rest key value

/-- The key has its new value, and all other keys have theirs. -/
theorem get?_insert (m : OrderedMap α) (key k : Text) (value : α) :
    get? (m.insert key value) k = if k = key then some value else m.get? k := by
  induction m with
  | nil =>
    by_cases h : k = key
    · simp [insert, get?, h]
    · simp [insert, get?, List.lookup_cons, h, beq_eq_false_iff_ne.2 h]
  | cons entry m ih =>
    obtain ⟨a, b⟩ := entry
    simp only [insert, get?] at *
    by_cases h : a = key
    · subst h
      by_cases h' : k = a
      · simp [h']
      · simp [List.lookup_cons, h', beq_eq_false_iff_ne.2 h']
    · by_cases h' : k = a
      · subst h'
        simp [h]
      · simp [h, List.lookup_cons, beq_eq_false_iff_ne.2 h', ih]

/-- A new key goes to the end, and a key that is there stays where it
is. -/
theorem keys_insert (m : OrderedMap α) (key : Text) (value : α) :
    keys (m.insert key value) = if key ∈ keys m then keys m else keys m ++ [key] := by
  induction m with
  | nil => rfl
  | cons entry m ih =>
    by_cases h : entry.1 = key
    · simp [insert, h, keys]
    · simp only [insert, if_neg h, keys, List.map_cons, List.mem_cons] at *
      rw [ih]
      by_cases h' : key ∈ List.map Prod.fst m
      · simp [h']
      · simp [h', Ne.symm h]

theorem mem_keys_insert {m : OrderedMap α} {key k : Text} {value : α} :
    k ∈ keys (m.insert key value) ↔ k = key ∨ k ∈ keys m := by
  rw [keys_insert]
  by_cases h : key ∈ keys m
  · rw [if_pos h]
    constructor
    · exact .inr
    · intro hk
      rcases hk with rfl | hk
      · exact h
      · exact hk
  · rw [if_neg h, List.mem_append, List.mem_singleton, or_comm]

/-- Gives keys their values one after the other, so that the last value
of a key wins. -/
def insertAll (m : OrderedMap α) (entries : List (Text × α)) : OrderedMap α :=
  entries.foldl (fun m entry => m.insert entry.1 entry.2) m

/-- A key that gets no new value keeps the one it has. -/
theorem get?_insertAll_of_not_mem (m : OrderedMap α) {entries : List (Text × α)} {key : Text}
    (h : key ∉ keys entries) : (m.insertAll entries).get? key = m.get? key := by
  induction entries generalizing m with
  | nil => rfl
  | cons entry entries ih =>
    have hfirst : key ≠ entry.1 := fun heq => h (heq ▸ List.mem_cons_self)
    have hrest : key ∉ keys entries := fun hmem => h (List.mem_cons_of_mem _ hmem)
    have hstep := ih (m.insert entry.1 entry.2) hrest
    rw [get?_insert, if_neg hfirst] at hstep
    exact hstep

/-- The map with the given entries, of which the last one of a key
wins. -/
def ofEntries (entries : List (Text × α)) : OrderedMap α :=
  insertAll [] entries

end OrderedMap

end TemplateScopes
