import Interop.Proofs.Marshal.RoundTrip
import Mathlib.Data.List.Induction
/-!
Maps as the writes that made them. The keys of a map stand in the order of their first writes, and
each has the value of its last one.
-/

set_option autoImplicit false

namespace Interop

variable {α : Type}

namespace Entries

theorem sizeOf_lt_of_mem_values [SizeOf α] {entries : Entries α} {value : α}
    (among : value ∈ entries.map Prod.snd) : sizeOf value < sizeOf entries := by
  obtain ⟨⟨key, value⟩, present, rfl⟩ := List.mem_map.mp among
  have smaller := List.sizeOf_lt_of_mem present
  rw [Prod.mk.sizeOf_spec] at smaller
  dsimp only
  omega

/-- The keys of some writes, each where it was written first. -/
def firstKeys (writes : Entries α) : List String := (keys writes).eraseDups

/-- The value that was written last under a key. -/
def lastValue? (writes : Entries α) (key : String) : Option α := writes.reverse.lookup key

theorem firstKeys_concat (writes : Entries α) (key : String) (value : α) :
    firstKeys (writes ++ [(key, value)]) =
      if key ∈ keys writes then firstKeys writes else firstKeys writes ++ [key] := by
  unfold firstKeys
  rw [keys, List.map_append, List.eraseDups_append]
  change (keys writes).eraseDups ++ ([key].removeAll (keys writes)).eraseDups = _
  by_cases known : key ∈ keys writes
  · simp [List.removeAll, known]
  · simp [List.removeAll, known, List.eraseDups_cons]

theorem lastValue?_concat (writes : Entries α) (key k : String) (value : α) :
    lastValue? (writes ++ [(key, value)]) k =
      if key = k then some value else lastValue? writes k := by
  unfold lastValue?
  rw [List.reverse_concat, List.lookup_cons]
  by_cases same : key = k
  · simp [same]
  · have different : (k == key) = false := beq_false_of_ne (Ne.symm same)
    rw [different, if_neg same]

theorem lastValue?_cons (key k : String) (value : α) (rest : Entries α) :
    lastValue? ((key, value) :: rest) k =
      (lastValue? rest k).or (if key = k then some value else none) := by
  unfold lastValue?
  rw [List.reverse_cons, List.lookup_append]
  by_cases same : key = k
  · simp [same]
  · have different : (k == key) = false := beq_false_of_ne (Ne.symm same)
    rw [if_neg same, List.lookup_cons, different]
    rfl

theorem lastValue?_append (early late : Entries α) (key : String) :
    lastValue? (early ++ late) key = (lastValue? late key).or (lastValue? early key) := by
  unfold lastValue?
  rw [List.reverse_append, List.lookup_append]

theorem lastValue?_eq_none {writes : Entries α} {key : String} (absent : key ∉ keys writes) :
    lastValue? writes key = none := by
  induction writes with
  | nil => rfl
  | cons write rest ih =>
      obtain ⟨k, value⟩ := write
      rw [keys_cons, List.mem_cons, not_or] at absent
      rw [lastValue?_cons, ih absent.2, if_neg (Ne.symm absent.1)]
      rfl

theorem keys_insert (entries : Entries α) (key : String) (value : α) :
    keys (insert entries key value) =
      if key ∈ keys entries then keys entries else keys entries ++ [key] := by
  by_cases known : key ∈ keys entries
  · rw [if_pos known]
    induction entries with
    | nil => cases known
    | cons entry rest ih =>
        obtain ⟨k, v⟩ := entry
        by_cases same : k = key
        · rw [insert, if_pos same, keys_cons, keys_cons]
        · rw [keys_cons, List.mem_cons] at known
          rw [insert, if_neg same, keys_cons, keys_cons,
            ih (known.resolve_left (Ne.symm same))]
  · rw [if_neg known, insert_of_not_mem value known, keys, List.map_append]
    rfl

theorem merge_concat (entries writes : Entries α) (key : String) (value : α) :
    merge entries (writes ++ [(key, value)]) = insert (merge entries writes) key value := by
  unfold merge
  rw [List.foldl_append]
  rfl

theorem mem_firstKeys {writes : Entries α} {key : String} :
    key ∈ firstKeys writes ↔ key ∈ keys writes := List.mem_eraseDups

theorem keys_normalize (writes : Entries α) : keys (normalize writes) = firstKeys writes := by
  induction writes using List.reverseRecOn with
  | nil => rfl
  | append_singleton writes entry ih =>
      obtain ⟨key, value⟩ := entry
      unfold normalize at ih ⊢
      rw [merge_concat, keys_insert, firstKeys_concat, ih]
      exact if_congr mem_firstKeys rfl rfl

/-- A key has the value of its last write, or else the one it had. -/
theorem get?_merge (entries writes : Entries α) (key : String) :
    get? (merge entries writes) key = (lastValue? writes key).or (get? entries key) := by
  induction writes using List.reverseRecOn with
  | nil => rfl
  | append_singleton writes entry ih =>
      obtain ⟨k, value⟩ := entry
      rw [merge_concat, get?_insert, lastValue?_concat, ih]
      split
      · rfl
      · rfl

theorem get?_normalize (writes : Entries α) (key : String) :
    get? (normalize writes) key = lastValue? writes key :=
  (get?_merge [] writes key).trans Option.or_none

/-! ### Merging what was normalized -/

theorem insert_insert (entries : Entries α) (key : String) (old value : α) :
    insert (insert entries key old) key value = insert entries key value := by
  induction entries with
  | nil => exact if_pos rfl
  | cons entry rest ih =>
      obtain ⟨k, v⟩ := entry
      by_cases same : k = key
      · rw [insert, insert, if_pos same, if_pos same, insert, if_pos same]
      · rw [insert, insert, if_neg same, if_neg same, insert, if_neg same, ih]

/-- Writes to different keys change places if the first key is there already. -/
theorem insert_comm {entries : Entries α} {key k : String} (known : key ∈ keys entries)
    (different : key ≠ k) (value v : α) :
    insert (insert entries key value) k v = insert (insert entries k v) key value := by
  induction entries with
  | nil => cases known
  | cons entry rest ih =>
      obtain ⟨first, old⟩ := entry
      by_cases here : first = key
      · have other : first ≠ k := fun same => different (here.symm.trans same)
        simp only [insert, if_pos here, if_neg other]
      · by_cases there : first = k
        · simp only [insert, if_neg here, if_pos there]
        · rw [keys_cons, List.mem_cons] at known
          simp only [insert, if_neg here, if_neg there]
          rw [ih (known.resolve_left (Ne.symm here))]

/-- A key that is not written again can be written last as well as first. -/
theorem merge_insert_of_not_mem {entries writes : Entries α} {key : String}
    (known : key ∈ keys entries) (absent : key ∉ keys writes) (value : α) :
    merge (insert entries key value) writes = insert (merge entries writes) key value := by
  induction writes generalizing entries with
  | nil => rfl
  | cons write rest ih =>
      obtain ⟨k, v⟩ := write
      rw [keys_cons, List.mem_cons, not_or] at absent
      change merge (insert (insert entries key value) k v) rest = _
      rw [insert_comm known absent.1]
      exact ih (mem_keys_insert.mpr (.inl known)) absent.2

/-- Writing a map with one more write is writing the map, then the write. -/
theorem merge_insert (entries : Entries α) {writes : Entries α}
    (distinct : (keys writes).Nodup) (key : String) (value : α) :
    merge entries (insert writes key value) = insert (merge entries writes) key value := by
  induction writes generalizing entries with
  | nil => rfl
  | cons write rest ih =>
      obtain ⟨k, v⟩ := write
      rw [keys_cons, List.nodup_cons] at distinct
      by_cases same : k = key
      · subst same
        rw [insert, if_pos rfl]
        change merge (insert entries k value) rest =
          insert (merge (insert entries k v) rest) k value
        have known : k ∈ keys (insert entries k v) := mem_keys_insert.mpr (.inr rfl)
        rw [← merge_insert_of_not_mem known distinct.1, insert_insert]
      · rw [insert, if_neg same]
        exact ih _ distinct.2

theorem merge_normalize (entries writes : Entries α) :
    merge entries (normalize writes) = merge entries writes := by
  induction writes using List.reverseRecOn with
  | nil => rfl
  | append_singleton writes write ih =>
      obtain ⟨key, value⟩ := write
      have distinct : (keys (normalize writes)).Nodup := nodup_keys_merge List.nodup_nil
      rw [merge_concat, ← ih, ← merge_insert entries distinct]
      exact congrArg (merge entries) (merge_concat [] writes key value)

theorem normalize_append (early late : Entries α) :
    normalize (early ++ late) = merge (normalize early) (normalize late) := by
  rw [merge_normalize]
  exact List.foldl_append

end Entries

namespace OrderedMap

/-- A write only ever adds to the keys, at their end. -/
theorem keys_prefix_insert (m : OrderedMap α) (key : String) (value : α) :
    m.keys <+: (m.insert key value).keys := by
  have keys : (m.insert key value).keys = if key ∈ m.keys then m.keys else m.keys ++ [key] :=
    Entries.keys_insert m.entries key value
  rw [keys]
  split
  · exact List.prefix_rfl
  · exact List.prefix_append _ _

theorem keys_ofEntries (writes : Entries α) :
    (ofEntries writes).keys = Entries.firstKeys writes := Entries.keys_normalize writes

theorem get?_ofEntries (writes : Entries α) (key : String) :
    (ofEntries writes).get? key = Entries.lastValue? writes key :=
  Entries.get?_normalize writes key

theorem get?_merge (m : OrderedMap α) (writes : Entries α) (key : String) :
    (m.merge writes).get? key = (Entries.lastValue? writes key).or (m.get? key) :=
  Entries.get?_merge m.entries writes key

theorem ofEntries_concat (writes : Entries α) (key : String) (value : α) :
    ofEntries (writes ++ [(key, value)]) = (ofEntries writes).insert key value :=
  ext_entries (Entries.merge_concat [] writes key value)

/-- The values of a map stand in the order of its keys. -/
theorem map_some_values (m : OrderedMap α) : m.values.map some = m.keys.map m.get? := by
  unfold values keys Entries.keys
  rw [List.map_map, List.map_map]
  apply List.map_congr_left
  intro entry among
  exact (get?_of_mem among).symm

theorem mem_values_iff {m : OrderedMap α} {value : α} :
    value ∈ m.values ↔ ∃ key, m.get? key = some value := by
  have moved : value ∈ m.values ↔ some value ∈ m.keys.map m.get? := by
    rw [← map_some_values, List.mem_map_of_injective fun _ _ => Option.some.inj]
  rw [moved, List.mem_map]
  constructor
  · rintro ⟨key, _, found⟩
    exact ⟨key, found⟩
  · rintro ⟨key, found⟩
    exact ⟨key, contains_iff.mp (Option.isSome_of_eq_some found), found⟩

end OrderedMap

end Interop
