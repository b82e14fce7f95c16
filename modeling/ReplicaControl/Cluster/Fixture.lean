import ReplicaControl.Cluster

/-!
# Clusters from documents

* `Cluster.ofDocument?` — the cluster that a document describes by its declared and selected states,
  its quota objects and its workloads.  Every part may be left out.
-/

namespace ReplicaControl.Cluster

/-- A quota object and its namespace. -/
def quotaOfDocument? (d : Document) : Option (String × QuotaObject) := do
  let parts ← d.record? ["namespace", "name", "hard"]
  let ns ← Document.required parts "namespace" Document.text?
  let name ← Document.required parts "name" Document.text?
  let hard ← Document.required parts "hard" ResourceList.ofDocument?
  return (ns, { name, hard })

/-- Adds a quota object after the others of its namespace. -/
def addQuota (quotas : Table String (List QuotaObject)) (q : String × QuotaObject) :
    Table String (List QuotaObject) :=
  quotas.insert q.1 ((quotas.get? q.1).getD [] ++ [q.2])

/-- Reads a list of names. -/
def namesOfDocument? : Document → Option (List String) := Document.list? Document.text?

/-- Reads a cluster. -/
def ofDocument? (d : Document) : Option Cluster := do
  let parts ← d.record? ["definitions", "cluster_states", "namespace_states", "quotas", "workloads"]
  let definitions ← Document.optional parts "definitions" [] (Document.list? State.ofDocument?)
  let clusterStates ← Document.optional parts "cluster_states" [] namesOfDocument?
  let namespaceStates ← Document.optional parts "namespace_states" []
    (Document.fields? namesOfDocument?)
  let quotas ← Document.optional parts "quotas" [] (Document.list? quotaOfDocument?)
  let workloads ← Document.optional parts "workloads" [] (Document.list? Workload.ofDocument?)
  return {
    inventory := workloads.foldl Inventory.put ∅
    quotas := quotas.foldl addQuota ∅
    definitions
    clusterStates
    namespaceStates := Table.ofList namespaceStates }

end ReplicaControl.Cluster
