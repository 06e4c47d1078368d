import Mathlib.Data.List.AList

/-!
# Values of a finite table

Facts about the values stored in an `AList` table, as a list up to permutation: how inserting,
erasing and replacing an entry change it.  Ownership arguments count what the stored values own,
so they are stated about `values` and `List.flatMap`.

Nothing here mentions a program.
-/

namespace Table

variable {κ β γ : Type*} [DecidableEq κ] {table : AList fun _ : κ => β} {k l : κ} {v w : β}

/-- The stored values, in the table's own order. -/
def values (table : AList fun _ : κ => β) : List β :=
  table.entries.map Sigma.snd

omit [DecidableEq κ] in
@[simp] theorem values_empty : values (∅ : AList fun _ : κ => β) = [] := rfl

theorem values_insert (table : AList fun _ : κ => β) (k : κ) (v : β) :
    values (table.insert k v) = v :: values (table.erase k) := rfl

theorem erase_of_notMem (absent : k ∉ table) : table.erase k = table := by
  ext1
  exact List.kerase_of_notMem_keys absent

theorem values_insert_of_notMem (absent : k ∉ table) :
    values (table.insert k v) = v :: values table := by
  rw [values_insert, erase_of_notMem absent]

theorem mem_values_iff : v ∈ values table ↔ ∃ k, table.lookup k = some v := by
  simp only [values, List.mem_map, Sigma.exists, exists_eq_right]
  exact exists_congr fun k => (List.mem_dlookup_iff table.nodupKeys).symm

/-- Where a part of the values tells the keys apart, no two values share it. -/
theorem nodup_map_values {part : β → γ}
    (apart : ∀ {k l v w}, table.lookup k = some v → table.lookup l = some w → part v = part w →
      k = l) : ((values table).map part).Nodup := by
  rw [values, List.map_map, List.Nodup, List.pairwise_map]
  refine (List.nodupKeys_iff_pairwise.mp table.nodupKeys).imp_of_mem ?_
  intro first second here there different same
  exact different (apart (AList.mem_lookup_iff.mpr here) (AList.mem_lookup_iff.mpr there) same)

/-- Taking one entry out of the table takes its value out of the values. -/
theorem values_perm (found : table.lookup k = some v) :
    List.Perm (values table) (v :: values (table.erase k)) := by
  have member : k ∈ table.entries.keys := List.dlookup_isSome.mp (by
    rw [show table.entries.dlookup k = some v from found]; rfl)
  obtain ⟨u, front, back, before, split, erased⟩ := List.exists_of_kerase member
  have here : table.entries.dlookup k = some u := by
    rw [split]
    exact List.mem_dlookup (split ▸ table.nodupKeys) (by simp)
  have same : u = v := Option.some.inj (here.symm.trans found)
  subst same
  have entries : (table.erase k).entries = front ++ back := erased
  rw [values, values, entries, split]
  simp only [List.map_append, List.map_cons]
  exact List.perm_middle

/-- Only the key written to is looked up differently. -/
theorem lookup_insert_iff {m : κ} :
    (table.insert k v).lookup m = if m = k then some v else table.lookup m := by
  split
  · rename_i same
    rw [same, AList.lookup_insert]
  · rename_i different
    exact AList.lookup_insert_ne different

theorem lookup_erase_iff {m : κ} :
    (table.erase k).lookup m = if m = k then none else table.lookup m := by
  split
  · rename_i same
    rw [same, AList.lookup_erase]
  · rename_i different
    exact AList.lookup_erase_ne different

/-- The number of entries. -/
def size (table : AList fun _ : κ => β) : Nat :=
  table.keys.length

omit [DecidableEq κ] in
@[simp] theorem size_empty : size (∅ : AList fun _ : κ => β) = 0 := rfl

omit [DecidableEq κ] in
@[simp] theorem length_values (table : AList fun _ : κ => β) :
    (values table).length = size table := by
  simp only [values, size, AList.keys, List.keys, List.length_map]

theorem size_insert_of_notMem (absent : k ∉ table) :
    size (table.insert k v) = size table + 1 := by
  have keys : table.keys.erase k = table.keys := List.erase_of_not_mem absent
  rw [size, AList.keys_insert, keys, List.length_cons, size]

/-- What is taken out of the table is missing from its size. -/
theorem size_erase_add (table : AList fun _ : κ => β) (k : κ) :
    size (table.erase k) + (table.lookup k).toList.length = size table := by
  cases found : table.lookup k with
  | none => rw [erase_of_notMem (AList.lookup_eq_none.mp found), Option.toList_none,
      List.length_nil, Nat.add_zero]
  | some v =>
      have lengths := (values_perm found).length_eq
      rwa [length_values, List.length_cons, length_values, eq_comm] at lengths

theorem size_erase_le : size (table.erase k) ≤ size table := by
  rw [size, AList.keys_erase]
  exact List.length_erase_le

theorem size_insert_of_mem (present : k ∈ table) : size (table.insert k v) = size table := by
  have member : k ∈ table.keys := present
  have positive : 0 < table.keys.length := List.length_pos_of_mem member
  rw [size, AList.keys_insert, List.length_cons, List.length_erase_of_mem member, size]
  omega

/-- Erase the keys one by one. -/
def eraseAll (table : AList fun _ : κ => β) (keys : List κ) : AList fun _ : κ => β :=
  keys.foldl (fun table k => table.erase k) table

theorem lookup_eraseAll (keys : List κ) (table : AList fun _ : κ => β) (k : κ) :
    (eraseAll table keys).lookup k = if k ∈ keys then none else table.lookup k := by
  induction keys generalizing table with
  | nil => rfl
  | cons l keys ih =>
      rw [eraseAll, List.foldl_cons, ← eraseAll, ih, lookup_erase_iff]
      by_cases same : k = l <;> simp [same]

/-- The keys left when a table loses the keys listed first. -/
theorem keys_eraseAll_perm {keys rest : List κ} (split : List.Perm table.keys (keys ++ rest)) :
    List.Perm (eraseAll table keys).keys rest := by
  induction keys generalizing table with
  | nil => exact split
  | cons l keys ih =>
      have erased := split.erase l
      rw [List.cons_append, List.erase_cons_head, ← AList.keys_erase] at erased
      exact ih erased

/-- What the values of a table own, before and after one entry is taken out. -/
theorem flatMap_values_perm (owned : β → List γ) (found : table.lookup k = some v) :
    List.Perm ((values table).flatMap owned)
      (owned v ++ (values (table.erase k)).flatMap owned) := by
  have split := (values_perm found).flatMap_right owned
  rwa [List.flatMap_cons] at split

end Table
