import ReplicaControl.Attempt
import ReplicaControl.NamespaceState

/-!
# Reconciliation cycles

* `Cycle.ofWorkloads` — decides on every workload of a list: what has no target is skipped or
  reported, what is being scaled or has failed gets its target revised, what is at its target is
  left alone, and all the rest is put before the quotas as one batch and launched.
* `Cycle.ofNamespace`, `Cycle.ofItem` — the cycles for all workloads of a namespace, and for one.  A
  cycle that cannot read what it needs gives up before anything changes.
-/

namespace ReplicaControl

/-- What a cycle decided for a workload. -/
inductive Decision where
  /-- The workload is not under control, or says nothing about any state. -/
  | skipped
  | unchanged
  | launched (start replicas : Int) (state : String)
  /-- An attempt is running, or the last one failed; its target was revised. -/
  | deferred (replicas : Int) (hasFailed : Bool)
  | quotaDenied (replicas : Int)
  /-- There is no target, or the quotas could not be read. -/
  | failed (message : String)
deriving DecidableEq

/-- A decision as a document. -/
def Decision.toDocument : Decision → Document
  | .skipped => .table [("decision", .text "skipped")]
  | .unchanged => .table [("decision", .text "unchanged")]
  | .launched start replicas state => .table [
      ("decision", .text "launched"), ("from", .int start), ("to", .int replicas),
      ("state", .text state)]
  | .deferred replicas hasFailed => .table [
      ("decision", .text "deferred"), ("to", .int replicas), ("failed", .bool hasFailed)]
  | .quotaDenied replicas => .table [("decision", .text "quota_denied"), ("to", .int replicas)]
  | .failed message => .table [("decision", .text "failed"), ("message", .text message)]

/-- A workload and what was decided for it. -/
structure ItemDecision where
  key : Key
  kind : Kind
  decision : Decision
deriving DecidableEq

/-- A decision about a workload. -/
def Decision.about (d : Decision) (w : Workload) : ItemDecision := ⟨w.key, w.kind, d⟩

/-- A workload and a target for it. -/
abbrev Launch := Workload × Target

/-- Why a cycle gave up. -/
inductive CycleError where
  /-- No state holds in the namespace. -/
  | unresolved (e : NamespaceState.Unresolved)
  | adapter (e : AdapterError)
  /-- Workloads of the kind are not reconciled. -/
  | noAdapter (kind : Kind)
deriving DecidableEq

/-- The error in words. -/
def CycleError.message : CycleError → String
  | .unresolved e => e.message
  | .adapter e => e.message
  | .noAdapter kind => "no adapter registered for " ++ kind.text

/-- What a cycle decided, and the attempts that it launches in order. -/
structure Cycle where
  ns : String
  state : String
  /-- The decisions, first the immediate ones, then those about the batch. -/
  items : List ItemDecision
  launches : List Launch

namespace Cycle

/-- The target of a workload, unless it is not under control or says nothing about any state. -/
def targetOf (item : Workload) (state : State) : Except TargetError (Option Target) :=
  if item.isOptedIn then
    match ReplicaMap.ofAnnotations item.annotations with
    | .error e => .error e
    | .ok m => if m.isEmpty then .ok none else (item.targetFor state).map some
  else .ok none

/-- Revises the target of a workload that is being scaled or has failed. -/
def revise (w : World) (item : Workload) (target : Target) : Option Decision × World :=
  if w.registry.isInFlight item.key || w.registry.isFailed item.key then
    match w.registry.claim item target.replicas with
    | (.inFlight, registry) => (some (.deferred target.replicas false), { w with registry })
    | (.failed, registry) => (some (.deferred target.replicas true), { w with registry })
    | (.claimed, registry) => (none, { w with registry := registry.release item.key })
  else (none, w)

/-- Decides on a workload, unless its change has to be put before the quotas. -/
def assess (w : World) (state : State) (item : Workload) : (Decision ⊕ Target) × World :=
  match targetOf item state with
  | .error e => (.inl (.failed e.message), w.emit (.about item (.failed e.message)))
  | .ok none => (.inl .skipped, w)
  | .ok (some target) =>
    match revise w item target with
    | (some decision, w) => (.inl decision, w)
    | (none, w) => if item.spec = target.replicas then (.inl .unchanged, w) else (.inr target, w)

/-- Decides on workloads one after the other, and collects the changes for the quotas. -/
def assessAll (w : World) (state : State) :
    List Workload → (List ItemDecision × List Launch) × World
  | [] => (([], []), w)
  | item :: rest =>
    match assess w state item with
    | (.inl decision, w) =>
      match assessAll w state rest with
      | ((decided, changes), w) => ((decision.about item :: decided, changes), w)
    | (.inr target, w) =>
      match assessAll w state rest with
      | ((decided, changes), w) => ((decided, (item, target) :: changes), w)

/-- Claims the workloads of a batch that the quotas have room for, and launches the claimed ones. -/
def launchAll (w : World) : List Launch → (List ItemDecision × List Launch) × World
  | [] => (([], []), w)
  | (item, target) :: rest =>
    match w.registry.claim item target.replicas with
    | (.claimed, registry) =>
      match launchAll { w with registry } rest with
      | ((decided, launches), w) =>
        (((Decision.launched item.spec target.replicas target.state).about item :: decided,
          (item, target) :: launches), w)
    | (claim, registry) =>
      match launchAll { w with registry } rest with
      | ((decided, launches), w) =>
        (((Decision.deferred target.replicas (claim = .failed)).about item :: decided, launches), w)

/-- Reports a batch that a quota refused. -/
def denyAll (w : World) (quota : String) (shortfall : ResourceList) :
    List Launch → List ItemDecision × World
  | [] => ([], w)
  | (item, target) :: rest =>
    match denyAll (w.emit (.about item (.quotaExceeded target.replicas quota shortfall))) quota
        shortfall rest with
    | (decided, w) => ((Decision.quotaDenied target.replicas).about item :: decided, w)

/-- Puts a batch of changes before the quotas. -/
def settleBatch (w : World) (ns : String) (changes : List Launch) :
    (List ItemDecision × List Launch) × World :=
  match w.admission ns (Quota.batchNeed (changes.map fun c => (c.1, c.2.replicas))) with
  | (.error e, w) => ((changes.map fun c => (Decision.failed e.message).about c.1, []), w)
  | (.ok (.denied quota shortfall), w) =>
    match denyAll w quota shortfall changes with
    | (decided, w) => ((decided, []), w)
  | (.ok .allowed, w) => launchAll w changes

/-- Decides on workloads of a namespace in which a state holds. -/
def ofWorkloads (w : World) (ns : String) (state : State) (items : List Workload) : Cycle × World :=
  match assessAll w state items with
  | ((decided, changes), w) =>
    if changes = [] then ({ ns, state := state.name, items := decided, launches := [] }, w)
    else
      match settleBatch w ns changes with
      | ((batch, launches), w) =>
        ({ ns, state := state.name, items := decided ++ batch, launches }, w)

/-- The label that the workloads of a cycle have. -/
def selector : Table String String := Table.ofList [(Workload.optInLabel, "true")]

/-- Reads the workloads of several kinds in a namespace. -/
def listAll (w : World) (ns : String) : List Kind → Except AdapterError (List Workload) × World
  | [] => (.ok [], w)
  | kind :: rest =>
    match w.listWorkloads kind ns selector with
    | (.error e, w) => (.error e, w)
    | (.ok items, w) =>
      match listAll w ns rest with
      | (.error e, w) => (.error e, w)
      | (.ok others, w) => (.ok (items ++ others), w)

/-- A cycle for all workloads of a namespace that are under control. -/
def ofNamespace (s : Settings) (w : World) (ns : String) : Except CycleError Cycle × World :=
  match NamespaceState.resolve w ns with
  | (.error e, w) => (.error (.unresolved e), w)
  | (.ok state, w) =>
    match listAll w ns s.enabledKinds with
    | (.error e, w) => (.error (.adapter e), w)
    | (.ok items, w) =>
      match ofWorkloads w ns state items with
      | (cycle, w) => (.ok cycle, w)

/-- A cycle for one workload.  If it is gone, so is its entry in the registry. -/
def ofItem (s : Settings) (w : World) (id : WorkloadId) : Except CycleError Cycle × World :=
  if s.enabledKinds.contains id.kind then
    match NamespaceState.resolve w id.key.ns with
    | (.error e, w) => (.error (.unresolved e), w)
    | (.ok state, w) =>
      match w.fetch id with
      | (.error (.notFound _), w) =>
        match ofWorkloads { w with registry := w.registry.erase id.key } id.key.ns state [] with
        | (cycle, w) => (.ok cycle, w)
      | (.error e, w) => (.error (.adapter e), w)
      | (.ok item, w) =>
        match ofWorkloads w id.key.ns state [item] with
        | (cycle, w) => (.ok cycle, w)
  else (.error (.noAdapter id.kind), w)

/-- What was decided for the first workload of a key. -/
def decision? (c : Cycle) (key : Key) : Option Decision :=
  (c.items.find? (·.key == key)).map (·.decision)

/-- A cycle as a document. -/
def toDocument (c : Cycle) : Document := .table [
  ("namespace", .text c.ns),
  ("state", .text c.state),
  ("items", .list (c.items.map fun i => .table [
    ("item", .table [("namespace", .text i.key.ns), ("name", .text i.key.name)]),
    ("kind", .text i.kind.text),
    ("decision", i.decision.toDocument)]))]

end Cycle

end ReplicaControl
