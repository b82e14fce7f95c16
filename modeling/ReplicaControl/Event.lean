import ReplicaControl.Quota

/-!
# Events

* `Event` — what is told about a workload: that it was scaled, that scaling failed, or that a quota
  refused it.
-/

namespace ReplicaControl

/-- Why an event is emitted. -/
inductive Event.Cause where
  /-- An attempt moved the count of its workload. -/
  | scaled (start reached : Int) (state : String)
  /-- An attempt failed, or there is no target. -/
  | failed (message : String)
  /-- A quota refused a count. -/
  | quotaExceeded (replicas : Int) (quota : String) (shortfall : ResourceList)
deriving DecidableEq

/-- What is told about a workload. -/
structure Event where
  key : Key
  kind : Kind
  cause : Event.Cause
deriving DecidableEq

namespace Event

/-- An event about a workload. -/
def about (w : Workload) (cause : Cause) : Event := ⟨w.key, w.kind, cause⟩

/-- The severity of an event. -/
def severity (e : Event) : String :=
  match e.cause with
  | .scaled .. => "Normal"
  | .failed .. => "Warning"
  | .quotaExceeded .. => "Warning"

/-- The reason of an event, in one word. -/
def reason (e : Event) : String :=
  match e.cause with
  | .scaled .. => "Scaled"
  | .failed .. => "ScalingFailed"
  | .quotaExceeded .. => "QuotaExceeded"

/-- The event in words. -/
def message (e : Event) : String :=
  match e.cause with
  | .scaled start reached state =>
    "scaled from " ++ Text.decimal start ++ " to " ++ Text.decimal reached ++
      " replicas for state " ++ state
  | .failed message => message
  | .quotaExceeded replicas quota shortfall =>
    "scaling to " ++ Text.decimal replicas ++ " replicas denied by quota " ++ quota ++
      ": short by " ++ shortfall.text

/-- An event as a document. -/
def toDocument (e : Event) : Document := .table [
  ("item", .table [("namespace", .text e.key.ns), ("name", .text e.key.name)]),
  ("kind", .text e.kind.text),
  ("event_type", .text e.severity),
  ("reason", .text e.reason),
  ("message", .text e.message)]

end Event

end ReplicaControl
