import ReplicaControl.Workload

/-!
# Inventories of workloads

* `Inventory` — workloads, each filed under its own kind and key.
* `Inventory.put`, `erase`, `adjust` — the ways to change one.
-/

namespace ReplicaControl

/-- Workloads filed under their kinds and keys. -/
structure Inventory where
  table : Table WorkloadId Workload
  /-- Every workload is filed under its own kind and key. -/
  filed : ∀ id w, table.get? id = some w → w.id = id

namespace Inventory

/-- The inventory without workloads. -/
def empty : Inventory := ⟨∅, fun _ _ h => nomatch h⟩

instance : EmptyCollection Inventory := ⟨empty⟩

instance : Inhabited Inventory := ⟨empty⟩

/-- The workload of a kind and key. -/
def get? (inv : Inventory) (id : WorkloadId) : Option Workload := inv.table.get? id

/-- Every workload, in the order of kinds, namespaces and names. -/
def workloads (inv : Inventory) : List Workload := inv.table.values

/-- Files a workload, over the one that was there. -/
def put (inv : Inventory) (w : Workload) : Inventory where
  table := inv.table.insert w.id w
  filed id v h := by
    rw [Table.get?_insert] at h
    split at h
    · cases h; exact Eq.symm ‹_›
    · exact inv.filed id v h

/-- Removes a workload. -/
def erase (inv : Inventory) (id : WorkloadId) : Inventory where
  table := inv.table.erase id
  filed id' v h := by
    by_cases he : id' = id
    · subst he; simp at h
    · rw [Table.get?_erase_of_ne _ he] at h
      exact inv.filed id' v h

/-- Changes a workload in place, in a way that keeps its kind and key. -/
def adjust (inv : Inventory) (id : WorkloadId) (f : Workload → Workload)
    (keeps : ∀ w, (f w).id = w.id) : Inventory where
  table := inv.table.adjust id f
  filed id' v h := by
    rw [Table.get?_adjust] at h
    split at h
    · obtain ⟨w, hw, rfl⟩ := Option.map_eq_some_iff.1 h
      rw [keeps, inv.filed id w hw]
      exact Eq.symm ‹_›
    · exact inv.filed id' v h

@[simp] theorem get?_put_self (inv : Inventory) (w : Workload) : (inv.put w).get? w.id = some w :=
  inv.table.get?_insert_self w.id w

theorem get?_put (inv : Inventory) (w : Workload) (id : WorkloadId) :
    (inv.put w).get? id = if id = w.id then some w else inv.get? id :=
  inv.table.get?_insert w.id id w

theorem get?_erase (inv : Inventory) (id id' : WorkloadId) :
    (inv.erase id).get? id' = if id' = id then none else inv.get? id' := by
  split
  · subst id'; exact inv.table.get?_erase_self id
  · exact inv.table.get?_erase_of_ne ‹_›

theorem get?_adjust (inv : Inventory) (id id' : WorkloadId) (f : Workload → Workload)
    (keeps : ∀ w, (f w).id = w.id) :
    (inv.adjust id f keeps).get? id' = if id' = id then (inv.get? id).map f else inv.get? id' :=
  inv.table.get?_adjust id id' f

/-- A workload is found under its own kind and key. -/
theorem id_of_get? {inv : Inventory} {id : WorkloadId} {w : Workload} (h : inv.get? id = some w) :
    w.id = id :=
  inv.filed id w h

end Inventory

end ReplicaControl
