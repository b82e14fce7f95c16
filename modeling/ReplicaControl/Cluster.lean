import ReplicaControl.Cluster.Inventory
import ReplicaControl.Quota
import ReplicaControl.State

/-!
# Clusters

* `Cluster` — the workloads, the quota objects, the declared and selected states, and the record of
  the counts that were written.
* `Cluster.write` — the write of a replica count under optimistic concurrency: it needs the version
  of the stored workload and raises it.  A stored version that cannot be raised ends the writer.
* `Cluster.quotaStatus` — the quotas of a namespace with the usage of its workloads.
* `Change`, `Cluster.apply` — what else may happen to a cluster.
-/

namespace ReplicaControl

/-- Why a request to a cluster was refused. -/
inductive AdapterError where
  | notFound (subject : String)
  | conflict (subject : String)
  | other (detail : String)
deriving DecidableEq

/-- The error in words. -/
def AdapterError.message : AdapterError → String
  | .notFound subject => "workload not found: " ++ subject
  | .conflict subject => "write conflict on " ++ subject
  | .other detail => "adapter error: " ++ detail

/-- A quota object: its name and limits. -/
structure QuotaObject where
  name : String
  hard : ResourceList
deriving DecidableEq

/-- A cluster. -/
structure Cluster where
  inventory : Inventory := ∅
  /-- The quota objects of each namespace, in order. -/
  quotas : Table String (List QuotaObject) := ∅
  definitions : List State := []
  clusterStates : List String := []
  namespaceStates : Table String (List String) := ∅
  /-- How many of the next writes are refused as conflicts. -/
  pendingConflicts : Nat := 0
  /-- Whether a write makes its replicas ready at once. -/
  autoReady : Bool := true
  /-- The counts that were written, in order. -/
  history : List (WorkloadId × Int) := []
deriving Inhabited

/-- The answer to a write. -/
inductive WriteResult where
  /-- The workload as it is stored now. -/
  | stored (w : Workload)
  | refused (e : AdapterError)
  /-- The stored version is the largest one, and the writer ends. -/
  | exhausted

namespace Cluster

/-- A kind and key in words. -/
def subject (id : WorkloadId) : String := id.kind.text ++ " " ++ id.key.text

/-- Reads a workload. -/
def read (c : Cluster) (id : WorkloadId) : Except AdapterError Workload :=
  match c.inventory.get? id with
  | some w => .ok w
  | none => .error (.notFound (subject id))

/-- A workload that asks for a count; if a write makes replicas ready at once, they are ready. -/
def withCount (c : Cluster) (w : Workload) (replicas : Int) : Workload :=
  { w with spec := replicas, ready := if c.autoReady then replicas else w.ready }

/-- Writes the count of a workload if its version is the stored one. -/
def write (c : Cluster) (w : Workload) : WriteResult × Cluster :=
  if 0 < c.pendingConflicts then
    (.refused (.conflict w.key.text), { c with pendingConflicts := c.pendingConflicts - 1 })
  else
    match c.inventory.get? w.id with
    | none => (.refused (.notFound (subject w.id)), c)
    | some old =>
      if old.version ≠ w.version then (.refused (.conflict w.key.text), c)
      else if old.version + 1 < versionBound then
        let new := { c.withCount old w.spec with version := old.version + 1 }
        (.stored new,
          { c with inventory := c.inventory.put new, history := c.history ++ [(w.id, new.spec)] })
      else
        (.exhausted, { c with inventory := c.inventory.put (c.withCount old w.spec) })

/-- The workloads of a kind in a namespace that match a selector, in the order of their names. -/
def list (c : Cluster) (kind : Kind) (ns : String) (selector : Table String String) :
    List Workload :=
  c.inventory.workloads.filter fun w => w.kind == kind && w.key.ns == ns && w.hasLabels selector

/-- The workloads of a namespace. -/
def workloadsOf (c : Cluster) (ns : String) : List Workload :=
  c.inventory.workloads.filter fun w => w.key.ns == ns

/-- What the workloads of a namespace take of its quotas. -/
def usage (c : Cluster) (ns : String) : ResourceList :=
  (c.workloadsOf ns).foldl (fun sum w => ResourceList.add sum (w.needed w.spec)) ∅

/-- The quota objects of a namespace with their usage. -/
def quotaStatus (c : Cluster) (ns : String) : List QuotaStatus :=
  ((c.quotas.get? ns).getD []).map fun q =>
    { name := q.name, hard := q.hard, used := (c.usage ns).restrict q.hard }

/-- The states selected for a namespace. -/
def statesOf (c : Cluster) (ns : String) : List String := (c.namespaceStates.get? ns).getD []

/-- The namespaces that have workloads, in order and each once. -/
def namespaces (c : Cluster) : List String :=
  (Table.ofList (c.inventory.workloads.map fun w => (w.key.ns, ()))).keys

/-- The counts that were written to the workloads of a key, in order. -/
def written (c : Cluster) (key : Key) : List Int :=
  (c.history.filter fun r => r.1.key == key).map (·.2)

end Cluster

/-- Something that happens to a cluster, other than a write. -/
inductive Change where
  | setDefinitions (definitions : List State)
  | setClusterStates (names : List String)
  | setNamespaceStates (ns : String) (names : List String)
  /-- A quota object is put after the others, in place of one with its name. -/
  | setQuota (ns name : String) (hard : ResourceList)
  | put (w : Workload)
  | delete (id : WorkloadId)
  /-- Writes make replicas ready at once, or no longer do. -/
  | setAutoReady (value : Bool)
  | setReady (id : WorkloadId) (ready : Int)
  | setCondition (id : WorkloadId) (reason : Option String)
  | injectConflicts (count : Nat)
  /-- The label that puts a workload under control is set or removed. -/
  | optIn (id : WorkloadId) (value : Option String)

namespace Cluster

/-- What a change makes of a cluster. -/
def apply (c : Cluster) : Change → Cluster
  | .setDefinitions definitions => { c with definitions }
  | .setClusterStates names => { c with clusterStates := names }
  | .setNamespaceStates ns names =>
    { c with namespaceStates := c.namespaceStates.insert ns names }
  | .setQuota ns name hard =>
    let others := ((c.quotas.get? ns).getD []).filter fun q => q.name != name
    { c with quotas := c.quotas.insert ns (others ++ [⟨name, hard⟩]) }
  | .put w => { c with inventory := c.inventory.put w }
  | .delete id => { c with inventory := c.inventory.erase id }
  | .setAutoReady value => { c with autoReady := value }
  | .setReady id ready =>
    { c with inventory := c.inventory.adjust id ({ · with ready }) fun _ => rfl }
  | .setCondition id reason =>
    { c with inventory := c.inventory.adjust id ({ · with condition := reason }) fun _ => rfl }
  | .injectConflicts count => { c with pendingConflicts := count }
  | .optIn id value =>
    let relabel (w : Workload) : Workload :=
      { w with labels :=
          match value with
          | some v => w.labels.insert Workload.optInLabel v
          | none => w.labels.erase Workload.optInLabel }
    { c with inventory := c.inventory.adjust id relabel fun _ => rfl }

end Cluster

end ReplicaControl
