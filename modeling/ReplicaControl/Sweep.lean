import ReplicaControl.Cycle

/-!
# Sweeps over failures

* `Sweep.survey` — goes once through the failed entries of the registry, and launches an attempt for
  each one whose workload and target can be read.
* `Sweep.Report` — what became of the failed entries; `Report.record` counts the ending of an
  attempt.
-/

namespace ReplicaControl.Sweep

/-- What became of the failed entries. -/
structure Report where
  retried : Nat := 0
  /-- Attempts that reached their target. -/
  succeeded : Nat := 0
  /-- Attempts that failed again, and entries without a target. -/
  failed : Nat := 0
  removed : Nat := 0
  deferred : Nat := 0
deriving DecidableEq, Inhabited

/-- A report as a document. -/
def Report.toDocument (r : Report) : Document := .table [
  ("retried", .int r.retried), ("succeeded", .int r.succeeded), ("failed", .int r.failed),
  ("removed", .int r.removed), ("deferred", .int r.deferred)]

/-- Counts the ending of an attempt; one without an ending broke off. -/
def Report.record (r : Report) : Option Ending → Report
  | some (.done (.scaled _)) => { r with succeeded := r.succeeded + 1 }
  | some (.done .unchanged) => { r with succeeded := r.succeeded + 1 }
  | some (.done .removed) => { r with removed := r.removed + 1 }
  | some (.done .quotaDenied) => { r with deferred := r.deferred + 1 }
  | some (.failed _) => { r with failed := r.failed + 1 }
  | none => { r with failed := r.failed + 1 }

/-- The states that were resolved during a sweep, if they could be. -/
abbrev States := List (String × Option State)

/-- The state of a namespace, which is resolved at most once in a sweep. -/
def stateOf (w : World) (states : States) (ns : String) : Option State × States × World :=
  match states.lookup ns with
  | some state => (state, states, w)
  | none =>
    match NamespaceState.resolve w ns with
    | (result, w) => (result.toOption, (ns, result.toOption) :: states, w)

/-- What a sweep makes of an entry. -/
inductive Step where
  /-- Nothing: something could not be read. -/
  | skipped
  /-- The entry is dropped, because its workload is gone. -/
  | removed
  | untargeted
  | launched (l : Launch)

/-- Retries a workload that was read: its entry shows a running attempt and stays failed. -/
def retry (w : World) (entry live : Workload) (state : State) : Step × World :=
  match live.targetFor state with
  | .error e =>
    (.untargeted, { w with
      registry := w.registry.update entry.key ({ · with failureMessage := e.message }) })
  | .ok target =>
    (.launched ({ live with failure := true, failureMessage := entry.failureMessage }, target),
      { w with
        registry :=
          w.registry.upsert { entry with scaling := true } true entry.failureMessage
            target.replicas })

/-- Looks at an entry in the state that holds in its namespace. -/
def visit (s : Settings) (w : World) (entry : Workload) (state : State) : Step × World :=
  if s.adapters.contains entry.kind then
    match w.fetch entry.id with
    | (.error (.notFound _), w) => (.removed, { w with registry := w.registry.erase entry.key })
    | (.error _, w) => (.skipped, w)
    | (.ok live, w) => retry w entry live state
  else (.skipped, w)

/-- Adds what was made of an entry to a report and to the attempts to launch. -/
def Step.note (step : Step) (r : Report) (launches : List Launch) : Report × List Launch :=
  match step with
  | .skipped => (r, launches)
  | .removed => ({ r with removed := r.removed + 1 }, launches)
  | .untargeted => ({ r with failed := r.failed + 1 }, launches)
  | .launched l => ({ r with retried := r.retried + 1 }, launches ++ [l])

/-- Goes through failed entries that no attempt is running for. -/
def visitAll (s : Settings) (w : World) (states : States) (r : Report) (launches : List Launch) :
    List Workload → (Report × List Launch) × World
  | [] => ((r, launches), w)
  | entry :: rest =>
    if entry.scaling then visitAll s w states r launches rest
    else
      match stateOf w states entry.key.ns with
      | (none, states, w) => visitAll s w states r launches rest
      | (some state, states, w) =>
        match visit s w entry state with
        | (step, w) =>
          match step.note r launches with
          | (r, launches) => visitAll s w states r launches rest

/-- Goes through the failed entries of the registry. -/
def survey (s : Settings) (w : World) : (Report × List Launch) × World :=
  visitAll s w [] {} [] w.registry.failures

end ReplicaControl.Sweep
