import ReplicaControl.Cluster.Fixture
import ReplicaControl.Simulation
import ReplicaControl.Toml

/-!
# Commands

* `Command.readConfig` — the configuration of a file, with its durations.
* `Command.simulate`, `checkConfig` — what the commands print, given the texts of their files; a
  file that cannot be read has no text.
-/

namespace ReplicaControl.Command

/-- Why a command fails. -/
inductive Failure where
  | unreadable
  /-- A file is no TOML, or describes nothing of the expected form. -/
  | malformed
  /-- A duration of the configuration is no duration. -/
  | duration (e : DurationError)
deriving DecidableEq

/-- The failure in words. -/
def Failure.message : Failure → String
  | .unreadable => "failed to read config"
  | .malformed => "failed to parse config"
  | .duration e => e.message

/-- The document of a file. -/
def readFile (text : Option String) : Except Failure Document :=
  match text with
  | none => .error .unreadable
  | some s =>
    match Toml.read? s with
    | some d => .ok d
    | none => .error .malformed

/-- The configuration of a file. -/
def readConfig (text : Option String) : Except Failure (Config × Timings) :=
  match readFile text with
  | .error e => .error e
  | .ok d =>
    match Config.ofDocument? d with
    | none => .error .malformed
    | some config =>
      match config.timings with
      | .error e => .error (.duration e)
      | .ok timings => .ok (config, timings)

/-- The configuration of a file that was given, or the default one. -/
def configOrDefault (file : Option (Option String)) : Except Failure (Config × Timings) :=
  match file with
  | some text => readConfig text
  | none =>
    match ({} : Config).timings with
    | .error e => .error (.duration e)
    | .ok timings => .ok ({}, timings)

/-- The cluster of a file. -/
def readCluster (text : Option String) : Except Failure Cluster :=
  match readFile text with
  | .error e => .error e
  | .ok d =>
    match Cluster.ofDocument? d with
    | none => .error .malformed
    | some cluster => .ok cluster

/-- A simulation of the cluster of a file. -/
def simulate (config : Option (Option String)) (cluster : Option String) (rounds : Nat) :
    Except Failure Document :=
  match configOrDefault config with
  | .error e => .error e
  | .ok (config, timings) =>
    match readCluster cluster with
    | .error e => .error e
    | .ok cluster => .ok (Simulation.run config timings cluster rounds).toDocument

/-- The configuration of a file, with its defaults. -/
def checkConfig (config : Option String) : Except Failure Document :=
  (readConfig config).map fun c => c.1.toDocument

end ReplicaControl.Command
