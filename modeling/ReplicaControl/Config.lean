import ReplicaControl.Duration
import ReplicaControl.Workload

/-!
# Configuration

* `Platform`, `Mode` — which kinds of workloads exist, and whether a target is written at once or in
  steps of one replica.
* `Config` — the configuration as it is written, with the durations still in text.
* `Timings`, `Config.timings` — the durations that the texts stand for.
-/

namespace ReplicaControl

/-- A flavour of cluster. -/
inductive Platform where
  | kubernetes
  | openshift
deriving DecidableEq, Inhabited

namespace Platform

/-- The name of a platform. -/
def text : Platform → String
  | kubernetes => "kubernetes"
  | openshift => "openshift"

/-- The kinds of workloads on a platform, in order. -/
def kinds : Platform → List Kind
  | kubernetes => [.deployment, .redisCluster]
  | openshift => Kind.all

end Platform

/-- How a workload is moved to its target. -/
inductive Mode where
  /-- One write of the target. -/
  | rapid
  /-- One replica at a time, each after the workload became ready. -/
  | step
deriving DecidableEq, Inhabited

/-- The name of a mode. -/
def Mode.text : Mode → String
  | rapid => "rapid"
  | step => "step"

/-- The durations of a configuration. -/
structure Timings where
  /-- The time between two polls for readiness. -/
  pollInterval : Duration
  /-- The time that a step may take beyond the progress deadline. -/
  stepSlack : Duration
  /-- The time between two sweeps. -/
  rectifyInterval : Duration
  /-- The time between two cycles. -/
  reconcileInterval : Duration
  /-- The time between two conflicting writes. -/
  conflictBackoff : Duration
deriving DecidableEq, Inhabited

/-- The configuration as it is written. -/
structure Config where
  platform : Platform := .kubernetes
  mode : Mode := .rapid
  /-- The time between two polls for readiness. -/
  pollInterval : String := "2s"
  /-- The time that a step may take beyond the progress deadline. -/
  stepSlack : String := "60s"
  /-- The time between two sweeps. -/
  rectifyInterval : String := "15s"
  /-- The time between two cycles. -/
  reconcileInterval : String := "30s"
  /-- How many conflicting writes make a failure. -/
  conflictRetries : Nat := 5
  /-- The time between two conflicting writes. -/
  conflictBackoff : String := "10ms"
deriving DecidableEq, Inhabited

namespace Config

/-- The durations, or the first text that is none. -/
def timings (c : Config) : Except DurationError Timings := do
  let pollInterval ← Duration.parse c.pollInterval
  let stepSlack ← Duration.parse c.stepSlack
  let rectifyInterval ← Duration.parse c.rectifyInterval
  let reconcileInterval ← Duration.parse c.reconcileInterval
  let conflictBackoff ← Duration.parse c.conflictBackoff
  return { pollInterval, stepSlack, rectifyInterval, reconcileInterval, conflictBackoff }

/-- How often a write is tried: at least once. -/
def writeTries (c : Config) : Nat := max c.conflictRetries 1

/-- The names of the parts of a configuration, in order. -/
def partNames : List String :=
  ["platform", "scaling_mode", "poll_interval", "step_timeout_slack", "rectify_interval",
    "reconcile_interval", "conflict_retries", "conflict_backoff"]

/-- Reads a configuration; every part has a default. -/
def ofDocument? (d : Document) : Option Config := do
  let parts ← d.record? partNames
  let platform ← Document.optional parts "platform" .kubernetes
    (Document.choice? [("kubernetes", .kubernetes), ("openshift", .openshift)])
  let mode ← Document.optional parts "scaling_mode" .rapid
    (Document.choice? [("rapid", .rapid), ("step", .step)])
  let pollInterval ← Document.optional parts "poll_interval" "2s" Document.text?
  let stepSlack ← Document.optional parts "step_timeout_slack" "60s" Document.text?
  let rectifyInterval ← Document.optional parts "rectify_interval" "15s" Document.text?
  let reconcileInterval ← Document.optional parts "reconcile_interval" "30s" Document.text?
  let conflictRetries ← Document.optional parts "conflict_retries" 5 (Document.nat? 4294967296)
  let conflictBackoff ← Document.optional parts "conflict_backoff" "10ms" Document.text?
  return {
    platform, mode, pollInterval, stepSlack, rectifyInterval, reconcileInterval, conflictRetries,
    conflictBackoff }

/-- A configuration as a document, with all its parts in order. -/
def toDocument (c : Config) : Document := .table [
  ("platform", .text c.platform.text),
  ("scaling_mode", .text c.mode.text),
  ("poll_interval", .text c.pollInterval),
  ("step_timeout_slack", .text c.stepSlack),
  ("rectify_interval", .text c.rectifyInterval),
  ("reconcile_interval", .text c.reconcileInterval),
  ("conflict_retries", .int c.conflictRetries),
  ("conflict_backoff", .text c.conflictBackoff)]

end Config

end ReplicaControl
