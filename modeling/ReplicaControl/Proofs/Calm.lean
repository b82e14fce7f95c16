import ReplicaControl.Proofs.Request

/-!
# Calm worlds

* `World.IsCalm` — no fault is to come, no write meets a conflict, and nothing reacts to one.
* `Cluster.update` — what the write of a count makes of a cluster that takes it.
* `Cluster.verdict` — the verdict on a need by the quotas as they are.
* `fetch_of_faults`, `admission_of_faults` — where no fault is to come, requests that read are
  answered by the cluster and change nothing.
* `IsCalm.fetch`, `IsCalm.admission`, `IsCalm.store` — so they are in a calm world, where a write is
  taken.
-/

namespace ReplicaControl

namespace Cluster

/-- A workload after a count is written to it. -/
def updated (c : Cluster) (x : Workload) (n : Int) : Workload :=
  { c.withCount x n with version := x.version + 1 }

/-- A cluster after a count is written to a workload. -/
def update (c : Cluster) (x : Workload) (n : Int) : Cluster :=
  { c with
    inventory := c.inventory.put (c.updated x n), history := c.history ++ [(x.id, n)] }

/-- The verdict on a need, if there is one. -/
def verdict (c : Cluster) (ns : String) : Option ResourceList → Admission
  | none => .allowed
  | some need => Quota.judge need (c.quotaStatus ns)

theorem verdict_of_no_quotas {c : Cluster} {ns : String} (h : c.quotaStatus ns = [])
    (need : Option ResourceList) : c.verdict ns need = .allowed := by
  cases need with
  | none => rfl
  | some need => simp only [verdict, h, Quota.judge]

/-- A write is taken if the workload is stored, no conflict is pending and the version can be
raised. -/
theorem write_of_stored {c : Cluster} {x : Workload} (hc : c.pendingConflicts = 0)
    (hget : c.inventory.get? x.id = some x) (hv : x.version + 1 < versionBound) (n : Int) :
    c.write { x with spec := n } = (.stored (c.updated x n), c.update x n) := by
  have hid : ({ x with spec := n } : Workload).id = x.id := rfl
  simp [write, hc, hid, hget, hv, withCount, updated, update]

/-- A write that is taken updates the cluster. -/
theorem eq_update_of_write {c c' : Cluster} {x new : Workload} {n : Int}
    (hget : c.inventory.get? x.id = some x)
    (h : c.write { x with spec := n } = (.stored new, c')) : c' = c.update x n := by
  obtain ⟨hnew, -, hc⟩ := write_stored_of_get? hget h
  rw [hc, hnew]
  rfl

/-- The cluster after a write holds the written workload, and all others as they were. -/
theorem get?_update (c : Cluster) (x : Workload) (n : Int) (id : WorkloadId) :
    (c.update x n).inventory.get? id =
      if id = x.id then some (c.updated x n) else c.inventory.get? id :=
  c.inventory.get?_put (c.updated x n) id

end Cluster

namespace World

theorem intercept_of_faults {w : World} (h : w.faults = []) (r : Request) :
    w.intercept r = (none, w) := by
  cases w
  cases h
  rfl

theorem ask_of_faults {α : Type} {w : World} (h : w.faults = []) (r : Request)
    (refused : Fault → α) (answer : Cluster → α) :
    w.ask r refused answer = (answer w.cluster, w) := by
  rw [ask, intercept_of_faults h]

theorem fetch_of_faults {w : World} {x : Workload} (h : w.faults = [])
    (hget : w.cluster.inventory.get? x.id = some x) : w.fetch x.id = (.ok x, w) := by
  rw [World.fetch, ask_of_faults h, Cluster.read, hget]

theorem admission_of_faults {w : World} (h : w.faults = []) (ns : String)
    (need : Option ResourceList) :
    w.admission ns need = (.ok (w.cluster.verdict ns need), w) := by
  cases need with
  | none => rfl
  | some need =>
    simp only [World.admission, fetchQuotas, ask_of_faults h, Quota.admission]
    rfl

/-- No request fails, no write meets a conflict, and nothing happens in reaction to one. -/
structure IsCalm (w : World) : Prop where
  faults : w.faults = []
  rules : w.rules = []
  conflicts : w.cluster.pendingConflicts = 0

namespace IsCalm

variable {w : World} {x : Workload}

theorem fetch (h : w.IsCalm) (hget : w.cluster.inventory.get? x.id = some x) :
    w.fetch x.id = (.ok x, w) :=
  fetch_of_faults h.faults hget

theorem admission (h : w.IsCalm) (ns : String) (need : Option ResourceList) :
    w.admission ns need = (.ok (w.cluster.verdict ns need), w) :=
  admission_of_faults h.faults ns need

/-- A write of a workload that is stored and whose version can be raised is taken. -/
theorem store (h : w.IsCalm) (hget : w.cluster.inventory.get? x.id = some x)
    (hv : x.version + 1 < versionBound) (n : Int) :
    w.store { x with spec := n } =
      (.stored (w.cluster.updated x n), { w with cluster := w.cluster.update x n }) := by
  rw [World.store, storeThrough, intercept_of_faults h.faults]
  simp [Cluster.write_of_stored h.conflicts hget hv n, afterWrite, h.rules]

/-- A calm world stays calm when a count is written. -/
theorem update (h : w.IsCalm) (x : Workload) (n : Int) :
    ({ w with cluster := w.cluster.update x n } : World).IsCalm :=
  ⟨h.faults, h.rules, h.conflicts⟩

end IsCalm

end World

end ReplicaControl
