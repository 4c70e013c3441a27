/-!
Maps from texts to values that keep the order in which keys were first put in.

`Entries` is the bare list of pairs; `OrderedMap` is such a list together with the fact that no key
stands in it twice. Writing an existing key keeps its place and replaces its value, writing a new
one appends it.
-/

set_option autoImplicit false

namespace Interop

variable {α β : Type}

/-- Pairs of a key and a value, in order. -/
abbrev Entries (α : Type) := List (String × α)

namespace Entries

def keys (entries : Entries α) : List String := entries.map Prod.fst

/-- The value of the first entry with this key. -/
def get? : Entries α → String → Option α
  | [], _ => none
  | (k, v) :: rest, key => if k = key then some v else get? rest key

/-- The entries after one write. -/
def insert : Entries α → String → α → Entries α
  | [], key, value => [(key, value)]
  | (k, v) :: rest, key, value =>
    if k = key then (k, value) :: rest else (k, v) :: insert rest key value

/-- The entries after the writes that a second list stands for. -/
def merge (entries writes : Entries α) : Entries α :=
  writes.foldl (fun done entry => insert done entry.1 entry.2) entries

/-- Each key once, where it stood first, with the value it had last. -/
def normalize (entries : Entries α) : Entries α := merge [] entries

/-! ### Keys -/

theorem mem_keys_insert {entries : Entries α} {key k : String} {value : α} :
    k ∈ keys (insert entries key value) ↔ k ∈ keys entries ∨ k = key := by
  induction entries with
  | nil => simp [insert, keys]
  | cons entry rest ih =>
    obtain ⟨k', v'⟩ := entry
    simp only [keys] at ih
    by_cases same : k' = key
    · subst same; simp [insert, keys]; grind
    · simp [insert, keys, same, ih, or_assoc]

theorem keys_cons (key : String) (value : α) (rest : Entries α) :
    keys ((key, value) :: rest) = key :: keys rest := rfl

theorem nodup_keys_insert {entries : Entries α} {key : String} {value : α}
    (distinct : (keys entries).Nodup) : (keys (insert entries key value)).Nodup := by
  induction entries with
  | nil => simp [insert, keys]
  | cons entry rest ih =>
    obtain ⟨k', v'⟩ := entry
    rw [keys_cons, List.nodup_cons] at distinct
    by_cases same : k' = key
    · rw [insert, if_pos same, keys_cons, List.nodup_cons]
      exact distinct
    · rw [insert, if_neg same, keys_cons, List.nodup_cons]
      exact ⟨fun h => (mem_keys_insert.1 h).elim distinct.1 same, ih distinct.2⟩

theorem nodup_keys_merge {entries writes : Entries α} (distinct : (keys entries).Nodup) :
    (keys (merge entries writes)).Nodup := by
  induction writes generalizing entries with
  | nil => exact distinct
  | cons entry rest ih => exact ih (nodup_keys_insert distinct)

/-! ### Values -/

theorem get?_insert (entries : Entries α) (key k : String) (value : α) :
    get? (insert entries key value) k = if key = k then some value else get? entries k := by
  induction entries with
  | nil => simp [insert, get?]
  | cons entry rest ih =>
    obtain ⟨k', v'⟩ := entry
    by_cases same : k' = key
    · subst same; by_cases found : k' = k <;> simp [insert, get?, found]
    · by_cases found : k' = k
      · subst found; simp [insert, get?, same]; exact fun h => absurd h.symm same
      · simp [insert, get?, same, found, ih]

theorem isSome_get? {entries : Entries α} {key : String} :
    (get? entries key).isSome = true ↔ key ∈ keys entries := by
  induction entries with
  | nil => simp [get?, keys]
  | cons entry rest ih =>
    obtain ⟨k', v'⟩ := entry
    by_cases same : k' = key
    · simp [get?, keys, same]
    · simp only [keys] at ih
      simp [get?, keys, same, ih, Ne.symm same]

end Entries

/-- Entries with each key at most once. -/
structure OrderedMap (α : Type) where
  entries : Entries α
  /-- No key stands twice. -/
  distinct : entries.keys.Nodup := by simp [Entries.keys]

namespace OrderedMap

def empty : OrderedMap α := { entries := [] }

instance : Inhabited (OrderedMap α) := ⟨empty⟩

def get? (m : OrderedMap α) (key : String) : Option α := m.entries.get? key

def insert (m : OrderedMap α) (key : String) (value : α) : OrderedMap α :=
  ⟨m.entries.insert key value, Entries.nodup_keys_insert m.distinct⟩

def merge (m : OrderedMap α) (writes : Entries α) : OrderedMap α :=
  ⟨m.entries.merge writes, Entries.nodup_keys_merge m.distinct⟩

/-- The map that a list of writes to the empty map makes. -/
def ofEntries (writes : Entries α) : OrderedMap α := empty.merge writes

def keys (m : OrderedMap α) : List String := m.entries.keys

def values (m : OrderedMap α) : List α := m.entries.map Prod.snd

def size (m : OrderedMap α) : Nat := m.entries.length

def isEmpty (m : OrderedMap α) : Bool := m.entries.isEmpty

def contains (m : OrderedMap α) (key : String) : Bool := (m.get? key).isSome

theorem ext_entries {m n : OrderedMap α} (h : m.entries = n.entries) : m = n := by
  cases m; cases n; cases h; rfl

theorem get?_insert (m : OrderedMap α) (key k : String) (value : α) :
    (m.insert key value).get? k = if key = k then some value else m.get? k :=
  Entries.get?_insert ..

theorem contains_iff {m : OrderedMap α} {key : String} : m.contains key = true ↔ key ∈ m.keys :=
  Entries.isSome_get?

def erase (m : OrderedMap α) (key : String) : OrderedMap α :=
  ⟨m.entries.filter (·.1 ≠ key), (List.filter_sublist.map Prod.fst).nodup m.distinct⟩

end OrderedMap
end Interop
