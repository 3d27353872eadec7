import MeshControl.Table
import Mathlib.Data.List.Nodup
import Mathlib.Data.List.Perm.Basic

/-! What a table holds, order set aside: a removal takes out one value, an insertion puts in
one in the place of the old value of its key.
-/

namespace MeshControl.Table

variable {κ ν : Type} [DecidableEq κ]

/-- A key that is found splits the entries around its one entry, by recursion on them. -/
theorem exists_split_of_find {key : κ} {value : ν} {entries : List (κ × ν)}
    (found : find key entries = some value)
    : ∃ front back, entries = front ++ (key, value) :: back := by
  induction entries with
  | nil => simp [find] at found
  | cons entry rest ih =>
      by_cases same : entry.1 = key
      · have held : entry.2 = value := by simpa [find, same] using found
        exact ⟨[], rest, by rw [← same, ← held, List.nil_append]⟩
      · obtain ⟨front, back, split⟩ := ih (by simpa [find, same] using found)
        exact ⟨entry :: front, back, by rw [split, List.cons_append]⟩

/-- Around the entry of a key, no other entry has that key, since keys are distinct. -/
theorem remove_split {key : κ} {value : ν} {front back : List (κ × ν)}
    (nodup : ((front ++ (key, value) :: back).map Prod.fst).Nodup)
    : remove key (front ++ (key, value) :: back) = front ++ back := by
  rw [List.map_append, List.map_cons, List.nodup_middle, List.nodup_cons, List.mem_append,
    not_or] at nodup
  obtain ⟨⟨front_apart, back_apart⟩, _⟩ := nodup
  have front_kept := remove_eq_self front_apart
  have back_kept := remove_eq_self back_apart
  simp only [remove] at *
  rw [List.filter_append, List.filter_cons_of_neg (by simp), front_kept, back_kept]

/-- A removal takes exactly the value of its key out. -/
theorem values_perm_erase {table : Table κ ν} {key : κ} {value : ν}
    (found : table.get? key = some value)
    : table.values.Perm (value :: (table.erase key).values) := by
  obtain ⟨entries, nodup⟩ := table
  obtain ⟨front, back, rfl⟩ := exists_split_of_find found
  simp only [values, erase, remove_split nodup, List.map_append, List.map_cons]
  exact List.perm_middle

/-- Tables that have the same keys list them in some order each. -/
theorem keys_perm {table other : Table κ ν}
    (same : ∀ key, (table.get? key).isSome = (other.get? key).isSome)
    : table.keys.Perm other.keys := by
  refine (List.perm_ext_iff_of_nodup table.nodup other.nodup).mpr fun key => ?_
  rw [← keys, ← keys, mem_keys_iff, mem_keys_iff, same]

/-- Exactly one key is missing where its entry was taken out. -/
theorem keys_perm_erase {table : Table κ ν} {key : κ} (found : (table.get? key).isSome = true)
    : table.keys.Perm (key :: (table.erase key).keys) := by
  have gone : key ∉ (table.erase key).keys := by
    rw [mem_keys_iff, get?_erase, if_pos rfl]
    simp
  have distinct : (key :: (table.erase key).keys).Nodup :=
    List.nodup_cons.mpr ⟨gone, (table.erase key).nodup⟩
  refine (List.perm_ext_iff_of_nodup table.nodup distinct).mpr fun other => ?_
  rw [← keys, List.mem_cons, mem_keys_iff, mem_keys_iff, get?_erase]
  by_cases same : other = key <;> simp [same, found]

/-- Removing a key that is not there changes nothing. -/
theorem erase_of_get?_eq_none {table : Table κ ν} {key : κ} (absent : table.get? key = none)
    : table.erase key = table := by
  have kept : remove key table.entries = table.entries :=
    remove_eq_self (find_eq_none_iff.mp absent)
  simp only [erase, kept]

/-- Two removals come to the same in either order. -/
theorem erase_erase_comm (table : Table κ ν) (first second : κ)
    : (table.erase first).erase second = (table.erase second).erase first := by
  simp only [erase, remove, List.filter_comm]

/-- A new key's value comes after all others. -/
theorem values_insert_of_new {table : Table κ ν} {key : κ} (value : ν)
    (absent : table.get? key = none)
    : (table.insert key value).values = table.values ++ [value] := by
  have missing : ¬ table.contains key = true := by simp [contains, absent]
  simp [insert, missing, values]

/-- An erased key stays erased when its value is replaced before. -/
theorem erase_insert (table : Table κ ν) (key : κ) (value : ν)
    : (table.insert key value).erase key = table.erase key := by
  have removed : remove key (table.insert key value).entries = remove key table.entries := by
    unfold insert
    split
    · simp only [remove, replace, List.filter_map]
      have unchanged : ∀ entry ∈ table.entries.filter
          ((fun entry => decide (entry.1 ≠ key))
            ∘ fun entry => if entry.1 = key then (key, value) else entry),
          (if entry.1 = key then (key, value) else entry) = entry := by
        intro entry member
        have apart := (List.mem_filter.mp member).2
        by_cases same : entry.1 = key <;> simp_all
      rw [List.map_congr_left unchanged, List.map_id']
      refine List.filter_congr fun entry _ => ?_
      by_cases same : entry.1 = key <;> simp [same]
    · simp [remove]
  simp [erase, removed]

/-- After an insertion the table holds the new value beside all values of other keys. -/
theorem values_insert_perm (table : Table κ ν) (key : κ) (value : ν)
    : (table.insert key value).values.Perm (value :: (table.erase key).values) := by
  have found : (table.insert key value).get? key = some value := by simp
  simpa only [erase_insert] using values_perm_erase found

/-- The keys after an insertion under a new key are those before and the new one. -/
theorem keys_insert_perm_of_new {table : Table κ ν} {key : κ} (absent : table.get? key = none)
    (value : ν)
    : (table.insert key value).keys.Perm (key :: table.keys) := by
  have taken : (table.insert key value).keys.Perm
      (key :: ((table.insert key value).erase key).keys) :=
    keys_perm_erase (by simp)
  rwa [erase_insert, erase_of_get?_eq_none absent] at taken

/-- Keys are distinct, so every entry is the one that its key finds. -/
theorem find_of_mem {entries : List (κ × ν)} (nodup : (entries.map Prod.fst).Nodup)
    {entry : κ × ν} (member : entry ∈ entries)
    : find entry.1 entries = some entry.2 := by
  induction entries with
  | nil => exact absurd member List.not_mem_nil
  | cons first rest ih =>
      rw [List.map_cons, List.nodup_cons] at nodup
      rcases List.mem_cons.mp member with here | behind
      · simp [find, here]
      · have apart : first.1 ≠ entry.1 :=
          fun same => nodup.1 (same ▸ List.mem_map_of_mem behind)
        simpa [find, apart] using ih nodup.2 behind

/-- The entries of a table are what its keys find. -/
theorem mem_entries_iff {table : Table κ ν} {key : κ} {value : ν}
    : (key, value) ∈ table.entries ↔ table.get? key = some value := by
  constructor
  · intro member
    exact find_of_mem table.nodup member
  · intro found
    obtain ⟨front, back, split⟩ := exists_split_of_find found
    simp [split]

/-- Every value that a table holds is that of some key. -/
theorem mem_values_iff {table : Table κ ν} {value : ν}
    : value ∈ table.values ↔ ∃ key, table.get? key = some value := by
  constructor
  · intro member
    obtain ⟨entry, listed, rfl⟩ := List.mem_map.mp member
    exact ⟨entry.1, find_of_mem table.nodup listed⟩
  · rintro ⟨key, found⟩
    exact (values_perm_erase found).mem_iff.mpr List.mem_cons_self

/-- A key has the value that was just inserted. -/
theorem get?_insert_self (table : Table κ ν) (key : κ) (value : ν)
    : (table.insert key value).get? key = some value := by
  simp

/-- Inserting the value that a key has already changes nothing. -/
theorem insert_of_get? {table : Table κ ν} {key : κ} {value : ν}
    (found : table.get? key = some value)
    : table.insert key value = table := by
  have present : table.contains key = true := by simp [contains, found]
  have kept : replace key value table.entries = table.entries := by
    refine (List.map_congr_left fun entry member => ?_).trans (List.map_id table.entries)
    by_cases same : entry.1 = key
    · have held : table.get? entry.1 = some entry.2 := find_of_mem table.nodup member
      rw [same, found, Option.some.injEq] at held
      simp [← same, held]
    · simp [same]
  simp only [insert, present, dite_true, kept]

/-- After the same value is inserted for some keys, each of them has it, and every other key has
its old one; by induction on the keys.
-/
theorem get?_foldl_insert {ι : Type} (place : ι → κ) (value : ν) (indices : List ι)
    (table : Table κ ν) (key : κ)
    : (indices.foldl (fun table index => table.insert (place index) value) table).get? key
      = if key ∈ indices.map place then some value else table.get? key := by
  induction indices generalizing table with
  | nil => simp
  | cons index rest ih =>
      rw [List.foldl_cons, ih, get?_insert, List.map_cons]
      by_cases here : key = place index
      · simp [here]
      · simp [here]

/-- Inserting a value again for keys that all have it changes nothing, by induction on them. -/
theorem foldl_insert_of_get? {ι : Type} {place : ι → κ} {value : ν} {indices : List ι}
    {table : Table κ ν} (held : ∀ index ∈ indices, table.get? (place index) = some value)
    : indices.foldl (fun table index => table.insert (place index) value) table = table := by
  induction indices with
  | nil => rfl
  | cons index rest ih =>
      rw [List.foldl_cons, insert_of_get? (held index List.mem_cons_self)]
      exact ih fun other member => held other (List.mem_cons_of_mem index member)

/-- A key has its changed value after every value changed. -/
@[simp] theorem get?_mapValues (table : Table κ ν) (change : ν → ν) (key : κ)
    : (table.mapValues change).get? key = (table.get? key).map change := by
  obtain ⟨entries, nodup⟩ := table
  simp only [get?, mapValues]
  clear nodup
  induction entries with
  | nil => rfl
  | cons entry rest ih =>
      by_cases same : entry.1 = key
      · simp [find, same]
      · simp [find, same, ih]

/-- A table weighs something only if some value of it does. -/
theorem exists_of_weight_pos {measure : ν → Nat} {table : Table κ ν}
    (positive : 0 < table.weight measure)
    : ∃ key value, table.get? key = some value ∧ 0 < measure value := by
  have some_value : ∃ value ∈ table.values, 0 < measure value := by
    unfold weight at positive
    generalize table.values = values at positive ⊢
    induction values with
    | nil => exact absurd positive (Nat.lt_irrefl 0)
    | cons value rest ih =>
        rw [List.foldr_cons] at positive
        by_cases heavy : 0 < measure value
        · exact ⟨value, List.mem_cons_self, heavy⟩
        · obtain ⟨other, member, weighs⟩ := ih (by omega)
          exact ⟨other, List.mem_cons_of_mem value member, weighs⟩
  obtain ⟨value, member, heavy⟩ := some_value
  obtain ⟨key, found⟩ := mem_values_iff.mp member
  exact ⟨key, value, found, heavy⟩

omit [DecidableEq κ] in
/-- The size is what a table weighs if every value weighs one. -/
theorem size_eq_weight (table : Table κ ν) : table.size = table.weight fun _ => 1 := by
  unfold size weight values
  induction table.entries with
  | nil => rfl
  | cons entry rest ih =>
      rw [List.length_cons, List.map_cons, List.foldr_cons, ih, Nat.add_comm]

/-- Another value of a key makes no table larger, and a new key makes it larger by one. -/
theorem size_insert (table : Table κ ν) (key : κ) (value : ν)
    : (table.insert key value).size = table.size + if table.contains key then 0 else 1 := by
  rw [size_eq_weight, size_eq_weight]
  cases found : table.get? key with
  | none =>
      have grown := weight_insert_of_new (fun _ => 1) table value found
      simpa [contains, found] using grown
  | some old =>
      have same := weight_insert_of_get? (fun _ => 1) table value found
      simp only [contains, found, Option.isSome_some, if_true]
      omega

/-- A removal makes no table larger. -/
theorem size_erase_le (table : Table κ ν) (key : κ) : (table.erase key).size ≤ table.size :=
  List.length_filter_le _ _

@[simp] theorem get?_empty (key : κ) : (empty : Table κ ν).get? key = none :=
  rfl

/-- A table with one entry. -/
def single (key : κ) (value : ν) : Table κ ν :=
  ⟨[(key, value)], by simp⟩

@[simp] theorem insert_empty (key : κ) (value : ν)
    : (empty : Table κ ν).insert key value = single key value := by
  simp [insert, empty, contains, get?, find, single]

@[simp] theorem insert_single (key : κ) (old value : ν)
    : (single key old).insert key value = single key value := by
  simp [insert, contains, get?, find, single, replace]

@[simp] theorem get?_single (key : κ) (value : ν) (other : κ)
    : (single key value).get? other = if key = other then some value else none :=
  rfl

@[simp] theorem erase_single (key : κ) (value : ν) : (single key value).erase key = empty := by
  simp [erase, single, remove, empty]

omit [DecidableEq κ] in
@[simp] theorem mapValues_single (change : ν → ν) (key : κ) (value : ν)
    : (single key value).mapValues change = single key (change value) :=
  rfl

/-- No value of a table weighs more than the table. -/
theorem le_weight (measure : ν → Nat) {table : Table κ ν} {key : κ} {value : ν}
    (found : table.get? key = some value)
    : measure value ≤ table.weight measure := by
  have erased := weight_erase measure table found
  omega

end MeshControl.Table
