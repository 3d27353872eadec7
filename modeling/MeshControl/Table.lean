/-!
Tables: finite maps that remember the order in which their keys first came in. The view of a
table is `get?`; `get?_insert` and `get?_erase` say what each operation does to it, and the
weight lemmas say what it does to a sum over the values.
-/

namespace MeshControl

/-- A finite map with one entry per key, in the order in which the keys first came in. -/
structure Table (κ ν : Type) where
  entries : List (κ × ν)
  nodup : (entries.map Prod.fst).Nodup

namespace Table

variable {κ ν : Type}

/-- The table without entries. -/
def empty : Table κ ν := ⟨[], .nil⟩

instance : Inhabited (Table κ ν) := ⟨empty⟩

/-- The keys, oldest first. -/
def keys (table : Table κ ν) : List κ :=
  table.entries.map Prod.fst

/-- The values, in the order of their keys. -/
def values (table : Table κ ν) : List ν :=
  table.entries.map Prod.snd

/-- The number of entries. -/
def size (table : Table κ ν) : Nat :=
  table.entries.length

/-- The sum of a measure over the values. -/
def weight (measure : ν → Nat) (table : Table κ ν) : Nat :=
  table.values.foldr (fun value total => measure value + total) 0

/-- The table with every value changed. -/
def mapValues (change : ν → ν) (table : Table κ ν) : Table κ ν :=
  ⟨table.entries.map fun entry => (entry.1, change entry.2), by
    rw [List.map_map]
    exact table.nodup⟩

/-- A change that keeps every value's measure keeps the weight. -/
theorem weight_mapValues (measure : ν → Nat) {change : ν → ν}
    (kept : ∀ value, measure (change value) = measure value) (table : Table κ ν)
    : (table.mapValues change).weight measure = table.weight measure := by
  simp [weight, values, mapValues, List.foldr_map, kept]

variable [DecidableEq κ]

/-- The first value of a key in a list of entries. -/
def find (key : κ) : List (κ × ν) → Option ν
  | [] => none
  | entry :: rest => if entry.1 = key then some entry.2 else find key rest

/-- The value of a key. -/
def get? (table : Table κ ν) (key : κ) : Option ν :=
  find key table.entries

/-- The key has a value. -/
def contains (table : Table κ ν) (key : κ) : Bool :=
  (table.get? key).isSome

/-- A list of entries in which a key's value is replaced. -/
def replace (key : κ) (value : ν) (entries : List (κ × ν)) : List (κ × ν) :=
  entries.map fun entry => if entry.1 = key then (key, value) else entry

/-- A list of entries without a key. -/
def remove (key : κ) (entries : List (κ × ν)) : List (κ × ν) :=
  entries.filter fun entry => decide (entry.1 ≠ key)

theorem map_fst_replace (key : κ) (value : ν) (entries : List (κ × ν))
    : (replace key value entries).map Prod.fst = entries.map Prod.fst := by
  simp only [replace, List.map_map]
  apply List.map_congr_left
  intro entry _
  by_cases h : entry.1 = key <;> simp [h]

theorem find_eq_none_iff {key : κ} {entries : List (κ × ν)}
    : find key entries = none ↔ key ∉ entries.map Prod.fst := by
  induction entries with
  | nil => simp [find]
  | cons entry rest ih =>
      by_cases h : entry.1 = key
      · simp [find, h]
      · simp [find, h, ih, Ne.symm h]

/-- Gives a key a value; a new key comes last, a known one keeps its place. -/
def insert (table : Table κ ν) (key : κ) (value : ν) : Table κ ν :=
  if h : table.contains key then
    ⟨replace key value table.entries, by rw [map_fst_replace]; exact table.nodup⟩
  else
    ⟨table.entries ++ [(key, value)], by
      rw [List.map_append]
      refine List.nodup_append.2 ⟨table.nodup, by simp, ?_⟩
      intro other member last equal
      have absent : find key table.entries = none := by
        simpa [contains, get?] using h
      simp only [List.map_cons, List.map_nil, List.mem_singleton] at equal
      subst equal
      intro same
      exact find_eq_none_iff.1 absent (same ▸ member)⟩

/-- Takes a key out. -/
def erase (table : Table κ ν) (key : κ) : Table κ ν :=
  ⟨remove key table.entries,
    (List.filter_sublist.map Prod.fst).nodup table.nodup⟩

theorem replace_eq_self {key : κ} (value : ν) {entries : List (κ × ν)}
    (absent : key ∉ entries.map Prod.fst)
    : replace key value entries = entries := by
  refine (List.map_congr_left fun entry member => ?_).trans (List.map_id entries)
  have apart : entry.1 ≠ key := fun equal => absent (equal ▸ List.mem_map_of_mem member)
  simp [apart]

theorem find_replace_of_ne (key : κ) (value : ν) (entries : List (κ × ν)) {other : κ}
    (asked : other ≠ key)
    : find other (replace key value entries) = find other entries := by
  induction entries with
  | nil => rfl
  | cons entry rest ih =>
      by_cases same : entry.1 = key
      · have apart : entry.1 ≠ other := fun equal => asked (equal ▸ same)
        have step : replace key value (entry :: rest) = (key, value) :: replace key value rest := by
          simp [replace, same]
        rw [step]
        simp [find, Ne.symm asked, apart, ih]
      · have step : replace key value (entry :: rest) = entry :: replace key value rest := by
          simp [replace, same]
        rw [step]
        simp [find, ih]

theorem find_replace_self (key : κ) (value : ν) {entries : List (κ × ν)}
    (present : find key entries ≠ none)
    : find key (replace key value entries) = some value := by
  induction entries with
  | nil => simp [find] at present
  | cons entry rest ih =>
      by_cases same : entry.1 = key
      · simp [replace, find, same]
      · have later : find key rest ≠ none := by simpa [find, same] using present
        have step : replace key value (entry :: rest) = entry :: replace key value rest := by
          simp [replace, same]
        rw [step]
        simp [find, same, ih later]

theorem find_replace (key : κ) (value : ν) (entries : List (κ × ν)) (other : κ)
    (present : find key entries ≠ none)
    : find other (replace key value entries)
      = if other = key then some value else find other entries := by
  by_cases asked : other = key
  · subst asked
    simp [find_replace_self other value present]
  · simp [asked, find_replace_of_ne key value entries asked]

theorem find_append_single (key : κ) (value : ν) (entries : List (κ × ν)) (other : κ)
    (h : find key entries = none)
    : find other (entries ++ [(key, value)])
      = if other = key then some value else find other entries := by
  induction entries with
  | nil =>
      by_cases asked : other = key
      · simp [find, asked]
      · simp [find, asked, Ne.symm asked]
  | cons entry rest ih =>
      have apart : entry.1 ≠ key := by
        intro e; simp [find, e] at h
      have later : find key rest = none := by simpa [find, apart] using h
      by_cases asked : entry.1 = other
      · have : other ≠ key := fun e => apart (asked.trans e)
        simp [find, asked, this]
      · simpa [find, asked] using ih later

/-- After an insertion the key has the new value and every other key its old one. -/
@[simp] theorem get?_insert (table : Table κ ν) (key : κ) (value : ν) (other : κ)
    : (table.insert key value).get? other
      = if other = key then some value else table.get? other := by
  unfold insert
  split
  · next h =>
      refine find_replace key value table.entries other ?_
      simpa [contains, get?, Option.isSome_iff_ne_none] using h
  · next h =>
      refine find_append_single key value table.entries other ?_
      simpa [contains, get?] using h

/-- After a removal the key has no value and every other key its old one. -/
@[simp] theorem get?_erase (table : Table κ ν) (key other : κ)
    : (table.erase key).get? other = if other = key then none else table.get? other := by
  simp only [erase, get?]
  induction table.entries with
  | nil => simp [remove, find]
  | cons entry rest ih =>
      by_cases same : entry.1 = key
      · by_cases asked : other = key
        · simpa [remove, find, same, asked] using ih
        · simpa [remove, find, same, asked, Ne.symm asked] using ih
      · by_cases asked : entry.1 = other
        · have : other ≠ key := fun e => same (asked.trans e)
          simp [remove, find, asked, this]
        · simpa [remove, find, same, asked] using ih

/-- What is still there after a removal was there before, under another key. -/
theorem of_get?_erase {table : Table κ ν} {key other : κ} {value : ν}
    (found : (table.erase key).get? other = some value)
    : other ≠ key ∧ table.get? other = some value := by
  rw [get?_erase] at found
  split at found
  · cases found
  · next apart => exact ⟨apart, found⟩

/-- A key is listed exactly when it has a value. -/
theorem mem_keys_iff (table : Table κ ν) (key : κ)
    : key ∈ table.keys ↔ (table.get? key).isSome := by
  have absent_iff : find key table.entries = none ↔ key ∉ table.entries.map Prod.fst :=
    find_eq_none_iff
  rw [Option.isSome_iff_ne_none, keys, get?]
  constructor
  · intro member absent
    exact absent_iff.1 absent member
  · intro found
    exact Classical.byContradiction fun missing => found (absent_iff.2 missing)

/-- An entry that is not the removed one's stays. -/
theorem remove_eq_self {key : κ} {entries : List (κ × ν)} (h : key ∉ entries.map Prod.fst)
    : remove key entries = entries := by
  refine List.filter_eq_self.2 fun entry member => ?_
  have : entry.1 ≠ key := fun e => h (e ▸ List.mem_map_of_mem member)
  simpa using this

/-- Removing a key takes exactly its value's measure out of the weight. -/
theorem weight_erase (measure : ν → Nat) (table : Table κ ν) {key : κ} {value : ν}
    (h : table.get? key = some value)
    : (table.erase key).weight measure + measure value = table.weight measure := by
  obtain ⟨entries, nodup⟩ := table
  simp only [get?, erase, weight, values] at *
  induction entries with
  | nil => simp [find] at h
  | cons entry rest ih =>
      simp only [List.map_cons, List.nodup_cons] at nodup
      by_cases same : entry.1 = key
      · have value_eq : entry.2 = value := by simpa [find, same] using h
        have rest_eq : remove key rest = rest := remove_eq_self (same ▸ nodup.1)
        have : remove key (entry :: rest) = remove key rest := by simp [remove, same]
        rw [this, rest_eq]
        simp [value_eq, Nat.add_comm]
      · have found : find key rest = some value := by simpa [find, same] using h
        have := ih nodup.2 found
        have step : remove key (entry :: rest) = entry :: remove key rest := by
          simp [remove, same]
        rw [step]
        simp only [List.map_cons, List.foldr_cons]
        omega

theorem weight_replace (measure : ν → Nat) {key : κ} {old : ν} (value : ν)
    {entries : List (κ × ν)} (nodup : (entries.map Prod.fst).Nodup)
    (found : find key entries = some old)
    : ((replace key value entries).map Prod.snd).foldr (fun v total => measure v + total) 0
          + measure old
        = (entries.map Prod.snd).foldr (fun v total => measure v + total) 0
          + measure value := by
  induction entries with
  | nil => simp [find] at found
  | cons entry rest ih =>
      simp only [List.map_cons, List.nodup_cons] at nodup
      by_cases same : entry.1 = key
      · have old_eq : entry.2 = old := by simpa [find, same] using found
        have step : replace key value (entry :: rest) = (key, value) :: rest := by
          have := replace_eq_self value (same ▸ nodup.1)
          simp only [replace] at this
          simp [replace, same, this]
        rw [step]
        simp only [List.map_cons, List.foldr_cons, old_eq]
        omega
      · have later : find key rest = some old := by simpa [find, same] using found
        have step : replace key value (entry :: rest) = entry :: replace key value rest := by
          simp [replace, same]
        have := ih nodup.2 later
        rw [step]
        simp only [List.map_cons, List.foldr_cons]
        omega

/-- Replacing a value exchanges its measure in the weight. -/
theorem weight_insert_of_get? (measure : ν → Nat) (table : Table κ ν) {key : κ} {old : ν}
    (value : ν) (found : table.get? key = some old)
    : (table.insert key value).weight measure + measure old
      = table.weight measure + measure value := by
  have present : table.contains key = true := by simp [contains, found]
  simp only [insert, present, dite_true, weight, values]
  exact weight_replace measure value table.nodup found

/-- A sum that is begun with a number is the sum and the number. -/
theorem foldr_measure (measure : ν → Nat) (start : Nat) (values : List ν)
    : values.foldr (fun value total => measure value + total) start
        = values.foldr (fun value total => measure value + total) 0 + start := by
  induction values with
  | nil => simp
  | cons value rest ih => simp only [List.foldr_cons, ih, Nat.add_assoc]

/-- A new key adds its value's measure to the weight. -/
theorem weight_insert_of_new (measure : ν → Nat) (table : Table κ ν) {key : κ} (value : ν)
    (absent : table.get? key = none)
    : (table.insert key value).weight measure = table.weight measure + measure value := by
  have missing : ¬ table.contains key = true := by simp [contains, absent]
  simp [insert, missing, weight, values, foldr_measure measure (measure value)]

end Table

end MeshControl
