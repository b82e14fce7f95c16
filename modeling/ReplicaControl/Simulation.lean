import ReplicaControl.Schedule

/-!
# Simulations

* `Simulation.run` — a number of rounds over a cluster.  A round runs one cycle for each namespace
  that had workloads at the start, waits for its attempts, and ends with a sweep.
* `Simulation.Report` — the rounds, and what is left in the end.
-/

namespace ReplicaControl.Simulation

/-- One round: the cycles that did not give up, and the sweep. -/
structure Round where
  cycles : List Cycle
  sweep : Sweep.Report

/-- The rounds of a simulation and the world in the end. -/
structure Report where
  rounds : List Round
  world : World

/-- The cycles of a round, each followed by a wait for its attempts. -/
def runCycles (s : Schedule) : List String → List Cycle × Schedule
  | [] => ([], s)
  | ns :: rest =>
    match s.reconcile ns with
    | (.error _, s) => runCycles s rest
    | (.ok (cycle, launched), s) =>
      match runCycles (s.join (launched.map (·.2))) rest with
      | (cycles, s) => (cycle :: cycles, s)

/-- A number of rounds. -/
def runRounds (s : Schedule) (namespaces : List String) : Nat → List Round × Schedule
  | 0 => ([], s)
  | n + 1 =>
    match runCycles s namespaces with
    | (cycles, s) =>
      match s.sweep with
      | (sweep, s) =>
        match runRounds s namespaces n with
        | (rounds, s) => ({ cycles, sweep } :: rounds, s)

/-- A simulation over a cluster in which all workloads of the platform can be reached. -/
def run (config : Config) (timings : Timings) (cluster : Cluster) (rounds : Nat) : Report :=
  let settings : Settings := { config, timings, adapters := config.platform.kinds }
  match runRounds { settings, world := { cluster } } cluster.namespaces rounds with
  | (rounds, s) => { rounds, world := s.world }

/-- A round as a document. -/
def Round.toDocument (r : Round) : Document := .table [
  ("reconciled", .list (r.cycles.map Cycle.toDocument)),
  ("sweep", r.sweep.toDocument)]

/-- A report as a document. -/
def Report.toDocument (r : Report) : Document := .table [
  ("cycles", .list (r.rounds.map Round.toDocument)),
  ("workloads", .list (r.world.cluster.inventory.workloads.map Workload.toDocument)),
  ("registry", r.world.registry.summary),
  ("failures", .list (r.world.registry.failures.map Workload.toDocument)),
  ("events", .list (r.world.events.map Event.toDocument))]

end ReplicaControl.Simulation
