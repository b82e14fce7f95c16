import ReplicaControl.Cluster
import ReplicaControl.Duration
import ReplicaControl.Event
import ReplicaControl.Fault
import ReplicaControl.Registry

/-!
# The world of the controller

* `Clock` — when a sleep is over.  The runtime decides that; `Clock.punctual` is a clock on which
  every sleep lasts as long as it is asked to.
* `World` — everything that attempts and cycles share: the time, the cluster, the faults that are
  still to come, the reactions to writes, the registry and the events.
* `World.ask` — a request that reads from the cluster.  It first meets the faults, and one that
  fails does not reach the cluster.
* `World.fetch`, `World.listWorkloads`, `World.fetchQuotas`, … — the requests that read.
* `World.store` — the request that writes, which meets the faults in the same way.
* `World.alarmAfter` — the alarm for a sleep that starts now.
-/

namespace ReplicaControl

/-- How the runtime measures sleeps. -/
structure Clock where
  /-- The instant at which a sleep is over that starts at an instant. -/
  wake : Nat → Duration → Nat

namespace Clock

/-- A sleep of a length `d` that starts at `t` is over at `t + d`. -/
def IsPunctual (c : Clock) : Prop := ∀ t d, c.wake t d = t + d.millis

/-- The clock on which every sleep lasts as long as it is asked to. -/
def punctual : Clock := ⟨fun t d => t + d.millis⟩

theorem isPunctual_punctual : punctual.IsPunctual := fun _ _ => rfl

instance : Inhabited Clock := ⟨punctual⟩

end Clock

/-- The end of a sleep.  Of alarms due at one instant the one with the lower ticket rings first. -/
structure Alarm where
  due : Nat
  /-- The number of alarms that were set before. -/
  ticket : Nat
deriving DecidableEq, Inhabited

/-- What may happen right after a write. -/
inductive Reaction where
  | change (c : Change)
  /-- Someone claims the written workload for a target. -/
  | claimWritten (desired : Int)

/-- What happens after the writes that it matches. -/
structure Rule where
  spec : Option Int := none
  name : Option String := none
  reactions : List Reaction

/-- Whether a rule applies to a workload that was just written. -/
def Rule.applies (r : Rule) (written : Workload) : Bool :=
  r.spec.all (· == written.spec) && r.name.all (· == written.key.name)

/-- What attempts and cycles share. -/
structure World where
  now : Nat := 0
  tickets : Nat := 0
  cluster : Cluster := {}
  /-- The faults that are still to come. -/
  faults : List Fault := []
  rules : List Rule := []
  registry : Registry := ∅
  events : List Event := []
deriving Inhabited

namespace World

/-- Adds an event. -/
def emit (w : World) (e : Event) : World := { w with events := w.events ++ [e] }

/-- Sets an alarm for an instant. -/
def setAlarm (w : World) (due : Nat) : Alarm × World :=
  (⟨due, w.tickets⟩, { w with tickets := w.tickets + 1 })

/-- Sets the alarm for a sleep that starts now. -/
def alarmAfter (w : World) (c : Clock) (d : Duration) : Alarm × World :=
  w.setAlarm (c.wake w.now d)

/-! ## Requests -/

/-- Lets the next request of a sort meet the faults. -/
def intercept (w : World) (request : Request) : Option Fault × World :=
  let (fault, faults) := Fault.next request w.faults
  (fault, { w with faults })

/-- The error that a fault makes of a request about workloads. -/
def adapterError (f : Fault) : AdapterError :=
  match f.kind with
  | .notFound => .notFound f.message
  | .conflict => .conflict f.message
  | .other => .other f.message

/-- Makes a request that reads from the cluster: a fault decides on the answer, else the cluster. -/
def ask {α : Type} (w : World) (request : Request) (refused : Fault → α) (answer : Cluster → α) :
    α × World :=
  match w.intercept request with
  | (some f, w) => (refused f, w)
  | (none, w) => (answer w.cluster, w)

/-- Reads a workload. -/
def fetch (w : World) (id : WorkloadId) : Except AdapterError Workload × World :=
  w.ask .get (fun f => .error (adapterError f)) fun c => c.read id

/-- Reads the workloads of a kind in a namespace that match a selector. -/
def listWorkloads (w : World) (kind : Kind) (ns : String) (selector : Table String String) :
    Except AdapterError (List Workload) × World :=
  w.ask .list (fun f => .error (adapterError f)) fun c => .ok (c.list kind ns selector)

/-- Lets something happen after a write. -/
def react (written : Workload) (w : World) : Reaction → World
  | .change c => { w with cluster := w.cluster.apply c }
  | .claimWritten desired => { w with registry := (w.registry.claim written desired).2 }

/-- Lets everything happen that the rules say about a write. -/
def afterWrite (w : World) (written : Workload) : World :=
  ((w.rules.filter (·.applies written)).flatMap (·.reactions)).foldl (react written) w

/-- Writes the count of a workload through the adapter of a kind, which knows no other kind. -/
def storeThrough (w : World) (kind : Kind) (x : Workload) : WriteResult × World :=
  match w.intercept .update with
  | (some f, w) => (.refused (adapterError f), w)
  | (none, w) =>
    if x.kind = kind then
      match w.cluster.write x with
      | (.stored new, cluster) => (.stored new, { w with cluster }.afterWrite new)
      | (result, cluster) => (result, { w with cluster })
    else (.refused (.other (kind.text ++ " adapter cannot update " ++ x.kind.text)), w)

/-- Writes the count of a workload. -/
def store (w : World) (x : Workload) : WriteResult × World := w.storeThrough x.kind x

/-- Reads the quotas of a namespace. -/
def fetchQuotas (w : World) (ns : String) : Except QuotaError (List QuotaStatus) × World :=
  w.ask .quotas (fun f => .error ⟨ns, f.message⟩) fun c => .ok (c.quotaStatus ns)

/-- Asks for the verdict on a need; without a need nothing is asked. -/
def admission (w : World) (ns : String) (need : Option ResourceList) :
    Except QuotaError Admission × World :=
  match need with
  | none => (.ok .allowed, w)
  | some _ =>
    match w.fetchQuotas ns with
    | (source, w) => (Quota.admission need source, w)

/-- Reads the declared states. -/
def fetchDefinitions (w : World) : Except String (List State) × World :=
  w.ask .definitions (fun f => .error f.message) fun c => .ok c.definitions

/-- Reads the states selected for the cluster. -/
def fetchClusterStates (w : World) : Except String (List String) × World :=
  w.ask .clusterStates (fun f => .error f.message) fun c => .ok c.clusterStates

/-- Reads the states selected for a namespace. -/
def fetchNamespaceStates (w : World) (ns : String) : Except String (List String) × World :=
  w.ask .namespaceStates (fun f => .error f.message) fun c => .ok (c.statesOf ns)

end World

end ReplicaControl
