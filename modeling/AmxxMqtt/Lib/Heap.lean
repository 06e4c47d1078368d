import Mathlib.Data.List.AList
import AmxxMqtt.Lib.Table

/-!
# Memory that is allocated and freed by hand

A heap is a table of the allocated objects by address.  `delete` fails on an address at which
nothing is allocated, so a run without failures frees nothing twice.

`Accounted heap owned` says that the addresses in `owned` are those allocated, each owned once.
What a group of addresses holds is then out of reach of the other owners: an allocation adds an
owner, a write leaves all addresses of other owners alone, and a group is freed without failure
and leaves exactly the rest.

Nothing here mentions a program.
-/

namespace Heap

variable {α ν : Type*} [DecidableEq α] {heap : AList fun _ : α => ν} {owned rest group : List α}
  {address : α}

/-- Free the object at an address. -/
def delete (heap : AList fun _ : α => ν) (address : α) : Option (AList fun _ : α => ν) :=
  if address ∈ heap then some (heap.erase address) else none

def deleteAll : List α → (AList fun _ : α => ν) → Option (AList fun _ : α => ν)
  | [], heap => some heap
  | address :: group, heap => (delete heap address).bind (deleteAll group)

/-- Every allocated object has one owner. -/
def Accounted (heap : AList fun _ : α => ν) (owned : List α) : Prop :=
  heap.keys.Perm owned

namespace Accounted

omit [DecidableEq α] in
theorem nodup (accounted : Accounted heap owned) : owned.Nodup :=
  (List.Perm.nodup_iff accounted).mp heap.keys_nodup

omit [DecidableEq α] in
theorem mem_iff (accounted : Accounted heap owned) : address ∈ heap ↔ address ∈ owned :=
  List.Perm.mem_iff accounted

omit [DecidableEq α] in
theorem perm (accounted : Accounted heap owned) (same : owned.Perm rest) : Accounted heap rest :=
  accounted.trans same

theorem alloc (accounted : Accounted heap owned) (fresh : address ∉ heap) (object : ν) :
    Accounted (heap.insert address object) (address :: owned) := by
  have keys : heap.keys.erase address = heap.keys := List.erase_of_not_mem fresh
  unfold Accounted
  rw [AList.keys_insert, keys]
  exact accounted.cons address

/-- An allocated object is replaced. -/
theorem write (accounted : Accounted heap owned) (allocated : address ∈ heap) (object : ν) :
    Accounted (heap.insert address object) owned := by
  unfold Accounted
  rw [AList.keys_insert]
  exact (List.perm_cons_erase allocated).symm.trans accounted

theorem delete (accounted : Accounted heap (address :: owned)) :
    Heap.delete heap address = some (heap.erase address) ∧
      Accounted (heap.erase address) owned := by
  have allocated : address ∈ heap := accounted.mem_iff.mpr List.mem_cons_self
  refine ⟨if_pos allocated, ?_⟩
  unfold Accounted
  rw [AList.keys_erase]
  simpa using List.Perm.erase address accounted

/-- A group of objects is freed without failure, and the others are as they were. -/
theorem deleteAll (accounted : Accounted heap (group ++ rest)) :
    ∃ heap', Heap.deleteAll group heap = some heap' ∧ Accounted heap' rest ∧
      ∀ address ∈ rest, heap'.lookup address = heap.lookup address := by
  induction group generalizing heap with
  | nil => exact ⟨heap, rfl, accounted, fun _ _ => rfl⟩
  | cons first group ih =>
      obtain ⟨deleted, left⟩ := accounted.delete
      obtain ⟨heap', freed, last, same⟩ := ih left
      refine ⟨heap', ?_, last, fun address among => (same address among).trans ?_⟩
      · rw [Heap.deleteAll, deleted, Option.bind_some, freed]
      · refine AList.lookup_erase_ne ?_
        rintro rfl
        exact (List.nodup_cons.mp accounted.nodup).1 (List.mem_append_right _ among)

end Accounted

end Heap
