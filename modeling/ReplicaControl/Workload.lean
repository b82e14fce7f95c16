import ReplicaControl.Resources

/-!
# Workloads

* `Kind`, `Key`, `WorkloadId` — what kind of object a workload is, its namespace and name, and both
  together.  A cluster tells workloads apart by `WorkloadId`, the registry by `Key` alone.
* `Workload` — the uniform view of a scalable object.
* `Workload.isOptedIn`, `allowsAutoscaling`, `exceededDeadline`, `hasLabels` — what its labels,
  annotations and condition say.
-/

namespace ReplicaControl

/-- The kinds of objects that can be scaled. -/
inductive Kind where
  | deployment
  | deploymentConfig
  | redisCluster
deriving DecidableEq, Inhabited

namespace Kind

/-- The name of a kind. -/
def text : Kind → String
  | deployment => "Deployment"
  | deploymentConfig => "DeploymentConfig"
  | redisCluster => "RedisCluster"

/-- Every kind, in order. -/
def all : List Kind := [deployment, deploymentConfig, redisCluster]

/-- The place of a kind in the order. -/
def rank : Kind → Nat
  | deployment => 0
  | deploymentConfig => 1
  | redisCluster => 2

instance : Ord Kind := ⟨compareOn rank⟩

instance : Std.TransOrd Kind := inferInstanceAs (Std.TransCmp (compareOn rank))

instance : Std.LawfulEqOrd Kind where
  eq_of_compare {a b} := by cases a <;> cases b <;> decide

/-- Reads the name of a kind. -/
def ofDocument? : Document → Option Kind := Document.choice? (all.map fun k => (k.text, k))

end Kind

/-- The namespace and the name of a workload. -/
structure Key where
  ns : String
  name : String
deriving DecidableEq, Inhabited

namespace Key

/-- Keys are ordered by namespace, then by name. -/
instance : Ord Key := ⟨compareLex (compareOn ns) (compareOn name)⟩

instance : Std.TransOrd Key := inferInstanceAs (Std.TransCmp (compareLex _ _))

instance : Std.LawfulEqOrd Key where
  eq_of_compare {a b} h := by
    obtain ⟨h₁, h₂⟩ := (compareLex_eq_eq ..).1 h
    have hns : a.ns = b.ns := Std.LawfulEqOrd.eq_of_compare h₁
    have hname : a.name = b.name := Std.LawfulEqOrd.eq_of_compare h₂
    cases a; cases b; simp_all

/-- The namespace and the name with a slash between them. -/
def text (k : Key) : String := k.ns ++ "/" ++ k.name

end Key

/-- What a cluster tells workloads apart by. -/
structure WorkloadId where
  kind : Kind
  key : Key
deriving DecidableEq, Inhabited

namespace WorkloadId

/-- Workloads are ordered by kind, then by key. -/
instance : Ord WorkloadId := ⟨compareLex (compareOn kind) (compareOn key)⟩

instance : Std.TransOrd WorkloadId := inferInstanceAs (Std.TransCmp (compareLex _ _))

instance : Std.LawfulEqOrd WorkloadId where
  eq_of_compare {a b} h := by
    obtain ⟨h₁, h₂⟩ := (compareLex_eq_eq ..).1 h
    have hkind : a.kind = b.kind := Std.LawfulEqOrd.eq_of_compare h₁
    have hkey : a.key = b.key := Std.LawfulEqOrd.eq_of_compare h₂
    cases a; cases b; simp_all

end WorkloadId

/-- The range of a replica count. -/
def IsCount (n : Int) : Prop := -2147483648 ≤ n ∧ n ≤ 2147483647

instance (n : Int) : Decidable (IsCount n) := inferInstanceAs (Decidable (_ ∧ _))

/-- The first version that an object cannot have. -/
def versionBound : Nat := 18446744073709551616

/-- The uniform view of a scalable object. -/
structure Workload where
  key : Key
  kind : Kind
  labels : Table String String := ∅
  annotations : Table String String := ∅
  /-- The replica count that the object asks for. -/
  spec : Int := 0
  /-- The number of replicas that are ready. -/
  ready : Int := 0
  /-- The target of the latest trigger, `-1` before there is one. -/
  desired : Int := -1
  /-- What one replica asks for. -/
  requests : ResourceList := ∅
  /-- What one replica may use at most. -/
  limits : ResourceList := ∅
  /-- How many seconds a rollout may take. -/
  progressDeadline : Nat := 600
  /-- The reason of the latest rollout condition. -/
  condition : Option String := none
  failure : Bool := false
  failureMessage : String := ""
  scaling : Bool := false
  /-- The version of the stored object, which every write raises. -/
  version : Nat := 0
deriving DecidableEq, Inhabited

namespace Workload

/-- What a cluster tells this workload from others by. -/
def id (w : Workload) : WorkloadId := ⟨w.kind, w.key⟩

/-- The label that puts a workload under control. -/
def optInLabel : String := "scaler/opt-in"

/-- The annotation of workloads that another controller may scale. -/
def autoscalingMark : String := "scaler/allow-autoscaling"

/-- The condition reason of a rollout that took too long. -/
def deadlineReason : String := "ProgressDeadlineExceeded"

/-- Whether the workload is under control. -/
def isOptedIn (w : Workload) : Bool := w.labels.get? optInLabel == some "true"

/-- Whether another controller may scale the workload. -/
def allowsAutoscaling (w : Workload) : Bool := w.annotations.get? autoscalingMark == some "true"

/-- Whether the cluster reports that the rollout took too long. -/
def exceededDeadline (w : Workload) : Bool := w.condition == some deadlineReason

/-- Whether the workload has every label of a selector. -/
def hasLabels (w : Workload) (selector : Table String String) : Bool :=
  selector.entries.all fun e => w.labels.get? e.1 == some e.2

/-- Reads a table of texts. -/
def textsOfDocument? (d : Document) : Option (Table String String) :=
  (d.fields? Document.text?).map Table.ofList

/-- Reads a replica count. -/
def countOfDocument? (d : Document) : Option Int := d.int? (-2147483648) 2147483647

/-- Reads what one replica asks for and what it may use. -/
def resourcesOfDocument? (d : Document) : Option (ResourceList × ResourceList) := do
  let parts ← d.record? ["requests", "limits"]
  let requests ← Document.optional parts "requests" ∅ ResourceList.ofDocument?
  let limits ← Document.optional parts "limits" ∅ ResourceList.ofDocument?
  return (requests, limits)

/-- The names of the parts of a workload, in order. -/
def partNames : List String :=
  ["namespace", "name", "kind", "labels", "annotations", "spec_replicas", "ready_replicas",
    "desired_replicas", "resources", "progress_deadline_seconds", "condition_reason", "failure",
    "failure_message", "is_being_scaled", "resource_version"]

/-- Reads a workload. -/
def ofDocument? (d : Document) : Option Workload := do
  let parts ← d.record? partNames
  let ns ← Document.required parts "namespace" Document.text?
  let name ← Document.required parts "name" Document.text?
  let kind ← Document.required parts "kind" Kind.ofDocument?
  let labels ← Document.optional parts "labels" ∅ textsOfDocument?
  let annotations ← Document.optional parts "annotations" ∅ textsOfDocument?
  let spec ← Document.optional parts "spec_replicas" 0 countOfDocument?
  let ready ← Document.optional parts "ready_replicas" 0 countOfDocument?
  let desired ← Document.optional parts "desired_replicas" (-1) countOfDocument?
  let (requests, limits) ← Document.optional parts "resources" (∅, ∅) resourcesOfDocument?
  let progressDeadline ←
    Document.optional parts "progress_deadline_seconds" 600 (Document.nat? 4294967296)
  let condition ← Document.optional parts "condition_reason" none Document.textOrNull?
  let failure ← Document.optional parts "failure" false Document.bool?
  let failureMessage ← Document.optional parts "failure_message" "" Document.text?
  let scaling ← Document.optional parts "is_being_scaled" false Document.bool?
  let version ← Document.optional parts "resource_version" 0 (Document.nat? versionBound)
  return {
    key := ⟨ns, name⟩, kind, labels, annotations, spec, ready, desired, requests, limits,
    progressDeadline, condition, failure, failureMessage, scaling, version }

/-- A table of texts as a document. -/
def textsToDocument (t : Table String String) : Document :=
  .table (t.entries.map fun e => (e.1, .text e.2))

/-- A workload as a document, with all its parts in order. -/
def toDocument (w : Workload) : Document := .table [
  ("namespace", .text w.key.ns),
  ("name", .text w.key.name),
  ("kind", .text w.kind.text),
  ("labels", textsToDocument w.labels),
  ("annotations", textsToDocument w.annotations),
  ("spec_replicas", .int w.spec),
  ("ready_replicas", .int w.ready),
  ("desired_replicas", .int w.desired),
  ("resources", .table [
    ("requests", w.requests.toDocument),
    ("limits", w.limits.toDocument)]),
  ("progress_deadline_seconds", .int w.progressDeadline),
  ("condition_reason", match w.condition with | some s => .text s | none => .null),
  ("failure", .bool w.failure),
  ("failure_message", .text w.failureMessage),
  ("is_being_scaled", .bool w.scaling),
  ("resource_version", .int w.version)]

end Workload

end ReplicaControl
